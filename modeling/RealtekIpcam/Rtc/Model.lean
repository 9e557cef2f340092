import Mathlib.Data.List.Basic

/-!
# The timers of the RTC core

The hardware has one alarm.  The core multiplexes it: the alarm of user space, the
update interrupt and the timers of the kernel are all on one queue, sorted by
expiry, and the alarm is set for its first entry.  Its interrupt schedules the work
that expires what is due and sets the alarm again.

`struct rtc_time` is left abstract, since the conversions are those of `lib.c`; like
`timerqueue_add` and the driver's `read_time`, they are given by an environment.
Every read of the time takes a while, which the state has in advance.
-/

namespace RealtekIpcam.Rtc

/-- `ktime_t`, in nanoseconds. -/
abbrev Ktime := Int64

/-- `time64_t`, in seconds. -/
abbrev Time64 := Int64

def EINTR : Int := 4
def EINVAL : Int := 22
def ERANGE : Int := 34
def ETIME : Int := 62

/-- The timers of a device: `aie_timer`, `uie_rtctimer` and those of the kernel. -/
inductive TimerId where
  | aie
  | uie
  | kernel (n : Nat)
  deriving DecidableEq

structure RtcTimer where
  expires : Ktime
  period : Ktime
  enabled : Bool
  deriving DecidableEq

structure RtcWkalrm (Tm : Type) where
  enabled : Bool
  time : Tm

/-- What the core calls, and the range of the hardware.  `driverReadTime` is what the
clock of the hardware shows, by the seconds that have passed. -/
structure RtcEnv (Tm : Type) where
  validTm : Tm → Bool
  tmToTime64 : Tm → Time64
  time64ToTm : Time64 → Tm
  tmToKtime : Tm → Ktime
  ktimeToTm : Ktime → Tm
  timerqueueAdd : (TimerId → Ktime) → TimerId → List TimerId → List TimerId
  driverReadTime : Nat → Tm
  rangeMin : Time64
  rangeMax : UInt64
  startSecs : Time64
  offsetSecs : Time64
  setStartTime : Bool
  uieUnsupported : Bool

/-- `struct rtc_device` and the hardware: the clock, and the alarm with its interrupt.
`ticks` are the seconds that pass before the next reads of the time, and
`setAlarmErrs` the driver's next answers to `set_alarm`; behind the end both are 0.
`fired` are the timers that were fired, with their expiries. -/
structure RtcDevice (Tm : Type) where
  timers : TimerId → RtcTimer
  timerqueue : List TimerId
  irqwork : Bool
  fired : List (TimerId × Ktime)
  clock : Nat
  alarmTime : Option Tm
  alarmEnabled : Bool
  ticks : List Nat
  setAlarmErrs : List Int

/-- `rtc_device_init`: no timer is started. -/
def rtcDeviceInit (Tm : Type) : RtcDevice Tm where
  timers := fun _ => ⟨0, 0, false⟩
  timerqueue := []
  irqwork := false
  fired := []
  clock := 0
  alarmTime := none
  alarmEnabled := false
  ticks := []
  setAlarmErrs := []

variable {Tm : Type}

/-! ## The range of the hardware -/

namespace RtcEnv

variable (env : RtcEnv Tm)

/-- `rtc_add_offset`.  The comparisons are signed or unsigned as in the source, where
`range_max` is a `timeu64_t`. -/
def rtcAddOffset (tm : Tm) : Tm :=
  if env.offsetSecs = 0 then tm
  else
    let secs := env.tmToTime64 tm
    if (env.startSecs > env.rangeMin ∧ secs ≥ env.startSecs) ∨
        (env.startSecs < env.rangeMin ∧
          secs.toUInt64 ≤ env.startSecs.toUInt64 + env.rangeMax - env.rangeMin.toUInt64) then tm
    else env.time64ToTm (secs + env.offsetSecs)

def rtcSubtractOffset (tm : Tm) : Tm :=
  if env.offsetSecs = 0 then tm
  else
    let secs := env.tmToTime64 tm
    if secs ≥ env.rangeMin ∧ secs.toUInt64 ≤ env.rangeMax then tm
    else env.time64ToTm (secs - env.offsetSecs)

def rtcValidRange (tm : Tm) : Int :=
  if env.rangeMin.toUInt64 ≠ env.rangeMax then
    let time := env.tmToTime64 tm
    let rangeMin := if env.setStartTime then env.startSecs else env.rangeMin
    let rangeMax :=
      if env.setStartTime then
        (env.startSecs.toUInt64 + env.rangeMax - env.rangeMin.toUInt64).toInt64
      else env.rangeMax.toInt64
    if time < rangeMin ∨ time > rangeMax then - ERANGE else 0
  else 0

def coreTime (clock : Nat) : Tm := env.rtcAddOffset (env.driverReadTime clock)

end RtcEnv

/-! ## Timers and the alarm -/

namespace RtcDevice

variable (s : RtcDevice Tm)

/-- The expiry of a timer, by which the queue is sorted. -/
def expires (t : TimerId) : Ktime := (s.timers t).expires

def setTimer (t : TimerId) (timer : RtcTimer) : RtcDevice Tm :=
  { s with timers := Function.update s.timers t timer }

def setEnabled (t : TimerId) (enabled : Bool) : RtcDevice Tm :=
  s.setTimer t { s.timers t with enabled := enabled }

def timerqueueDel (t : TimerId) : RtcDevice Tm :=
  { s with timerqueue := s.timerqueue.erase t }

/-- `pm_stay_awake` and `schedule_work` of `irqwork`. -/
def scheduleIrqwork : RtcDevice Tm := { s with irqwork := true }

/-- `rtc_alarm_disable`, and the driver's `alarm_irq_enable`. -/
def alarmIrqEnable (enabled : Bool) : RtcDevice Tm := { s with alarmEnabled := enabled }

/-- The driver's `set_alarm`. -/
def setAlarm (alarm : RtcWkalrm Tm) : Int × RtcDevice Tm :=
  let err := s.setAlarmErrs.headD 0
  let s := { s with setAlarmErrs := s.setAlarmErrs.tail }
  if err = 0 then
    (0, { s with alarmTime := some alarm.time, alarmEnabled := alarm.enabled })
  else (err, s)

/-- Time passes before the next read. -/
def tick : RtcDevice Tm :=
  { s with clock := s.clock + s.ticks.headD 0, ticks := s.ticks.tail }

end RtcDevice

namespace RtcEnv

variable (env : RtcEnv Tm)

/-- `__rtc_read_time`. -/
def readTime (s : RtcDevice Tm) : (Int × Tm) × RtcDevice Tm :=
  let tm := env.coreTime s.tick.clock
  ((if env.validTm tm then 0 else - EINVAL, tm), s.tick)

/-- `__rtc_set_alarm`, which changes the caller's alarm. -/
def setAlarm (s : RtcDevice Tm) (alarm : RtcWkalrm Tm) :
    (Int × RtcWkalrm Tm) × RtcDevice Tm :=
  if env.validTm alarm.time then
    let scheduled := env.tmToTime64 alarm.time
    let ((err, tm), s) := env.readTime s
    if err ≠ 0 then ((err, alarm), s)
    else if scheduled ≤ env.tmToTime64 tm then ((- ETIME, alarm), s)
    else
      let alarm := { alarm with time := env.rtcSubtractOffset alarm.time }
      let (err, s) := s.setAlarm alarm
      ((err, alarm), s)
  else ((- EINVAL, alarm), s)

/-- A timer goes on the queue, by its expiry. -/
def addTimer (s : RtcDevice Tm) (t : TimerId) : RtcDevice Tm :=
  { s with timerqueue := env.timerqueueAdd s.expires t s.timerqueue }

def rtcTimerEnqueue (s : RtcDevice Tm) (t : TimerId) : Int × RtcDevice Tm :=
  let ((err, tm), s) := env.readTime s
  if err ≠ 0 then (err, s)
  else
    let s := s.setEnabled t true
    let now := env.tmToKtime tm
    -- Expired timers are skipped.
    let next := (s.timerqueue.dropWhile fun u => s.expires u < now).head?
    let s := env.addTimer s t
    if next.all fun u => s.expires t < s.expires u then
      let ((err, _), s) := env.setAlarm s ⟨true, env.ktimeToTm (s.expires t)⟩
      if err = - ETIME then (0, s.scheduleIrqwork)
      else if err ≠ 0 then (err, (s.timerqueueDel t).setEnabled t false)
      else (0, s)
    else (0, s)

def rtcTimerRemove (s : RtcDevice Tm) (t : TimerId) : RtcDevice Tm :=
  let next := s.timerqueue.head?
  let s := (s.timerqueueDel t).setEnabled t false
  if next = some t then
    match s.timerqueue with
    | [] => s.alarmIrqEnable false
    | u :: _ =>
      let ((err, _), s) := env.setAlarm s ⟨true, env.ktimeToTm (s.expires u)⟩
      if err = - ETIME then s.scheduleIrqwork else s
  else s

/-- The expiry of one timer in `rtc_timer_do_work`.  The functions of the timers do
not touch the queue: they run under `ops_lock`. -/
def expireTimer (s : RtcDevice Tm) (t : TimerId) : RtcDevice Tm :=
  let s := (s.timerqueueDel t).setEnabled t false
  let s := { s with fired := s.fired ++ [(t, s.expires t)] }
  if (s.timers t).period ≠ 0 then
    let timer := s.timers t
    env.addTimer
      (s.setTimer t { timer with expires := timer.expires + timer.period, enabled := true }) t
  else s

/-- The loop that expires the timers that are due, with a bound on its rounds. -/
def expireTimers (now : Ktime) : Nat → RtcDevice Tm → Option (RtcDevice Tm)
  | 0, _ => none
  | n + 1, s =>
    match s.timerqueue with
    | [] => some s
    | t :: _ => if s.expires t > now then some s else expireTimers now n (env.expireTimer s t)

/-- The jump to `reprogram`, as long as there are retries. -/
def reprogram : Nat → RtcDevice Tm → RtcWkalrm Tm → Int × RtcDevice Tm
  | retry, s, alarm =>
    let ((err, alarm), s) := env.setAlarm s alarm
    if err = 0 ∨ err = - ETIME then (err, s)
    else
      match retry with
      | 0 => (err, s)
      | retry + 1 => reprogram retry s alarm

/-- `rtc_timer_do_work`, with a bound on its rounds. -/
def rtcTimerDoWork : Nat → RtcDevice Tm → Option (RtcDevice Tm)
  | 0, _ => none
  | n + 1, s =>
    let ((_, tm), s) := env.readTime s
    (env.expireTimers (env.tmToKtime tm) (n + 1) s).bind fun s =>
      match s.timerqueue with
      | [] => some (s.alarmIrqEnable false)
      | t :: _ =>
        let (err, s) := env.reprogram 3 s ⟨true, env.ktimeToTm (s.expires t)⟩
        if err = 0 then some s
        else if err = - ETIME then rtcTimerDoWork n s
        else rtcTimerDoWork n ((s.timerqueueDel t).setEnabled t false)

/-! ## The interface -/

/-- `rtc_set_alarm`.  A signal may come while it waits for `ops_lock`. -/
def rtcSetAlarm (s : RtcDevice Tm) (signal : Bool) (alarm : RtcWkalrm Tm) :
    Int × RtcDevice Tm :=
  if !env.validTm alarm.time then (- EINVAL, s)
  else if env.rtcValidRange alarm.time ≠ 0 then (env.rtcValidRange alarm.time, s)
  else if signal then (- EINTR, s)
  else
    let s := if (s.timers .aie).enabled then env.rtcTimerRemove s .aie else s
    let s := s.setTimer .aie
      { s.timers .aie with expires := env.tmToKtime alarm.time, period := 0 }
    if alarm.enabled then env.rtcTimerEnqueue s .aie else (0, s)

def rtcAlarmIrqEnable (s : RtcDevice Tm) (signal enabled : Bool) : Int × RtcDevice Tm :=
  if signal then (- EINTR, s)
  else
    let (err, s) :=
      if (s.timers .aie).enabled ≠ enabled then
        if enabled then env.rtcTimerEnqueue s .aie else (0, env.rtcTimerRemove s .aie)
      else (0, s)
    if err ≠ 0 then (err, s) else (0, s.alarmIrqEnable enabled)

/-- `rtc_update_irq_enable`, without emulation. -/
def rtcUpdateIrqEnable (s : RtcDevice Tm) (signal enabled : Bool) : Int × RtcDevice Tm :=
  if signal then (- EINTR, s)
  else if (s.timers .uie).enabled = enabled then (0, s)
  else if env.uieUnsupported then (- EINVAL, s)
  else if enabled then
    let ((_, tm), s) := env.readTime s
    let s := s.setTimer .uie
      { s.timers .uie with
        expires := env.tmToKtime tm + 1000000000
        period := 1000000000 }
    env.rtcTimerEnqueue s .uie
  else (0, env.rtcTimerRemove s .uie)

def rtcTimerStart (s : RtcDevice Tm) (t : TimerId) (expires period : Ktime) :
    Int × RtcDevice Tm :=
  let s := if (s.timers t).enabled then env.rtcTimerRemove s t else s
  let s := s.setTimer t { s.timers t with expires := expires, period := period }
  env.rtcTimerEnqueue s t

def rtcTimerCancel (s : RtcDevice Tm) (t : TimerId) : RtcDevice Tm :=
  if (s.timers t).enabled then env.rtcTimerRemove s t else s

end RtcEnv

/-- The calls that take `ops_lock`. -/
inductive RtcCall (Tm : Type) where
  | setAlarm (signal : Bool) (alarm : RtcWkalrm Tm)
  | alarmIrqEnable (signal enabled : Bool)
  | updateIrqEnable (signal enabled : Bool)
  | timerStart (t : TimerId) (expires period : Ktime)
  | timerCancel (t : TimerId)

/-- What happens to a device: a call, with the seconds that pass during it, a run of the
work, the passage of time, and `rtc_update_irq`. -/
inductive RtcEvent (Tm : Type) where
  | call (ticks : List Nat) (call : RtcCall Tm)
  | doWork (ticks : List Nat) (rounds : Nat)
  | elapse (secs : Nat)
  | updateIrq

namespace RtcEnv

variable (env : RtcEnv Tm)

def runCall (s : RtcDevice Tm) : RtcCall Tm → RtcDevice Tm
  | .setAlarm signal alarm => (env.rtcSetAlarm s signal alarm).2
  | .alarmIrqEnable signal enabled => (env.rtcAlarmIrqEnable s signal enabled).2
  | .updateIrqEnable signal enabled => (env.rtcUpdateIrqEnable s signal enabled).2
  | .timerStart t expires period => (env.rtcTimerStart s t expires period).2
  | .timerCancel t => env.rtcTimerCancel s t

/-- What an event does, between states in which `ops_lock` is free.  The work runs when it
is pending, and is pending again when it is scheduled from then on. -/
def rtcStep (s : RtcDevice Tm) : RtcEvent Tm → Option (RtcDevice Tm)
  | .call ticks call => some (env.runCall { s with ticks := ticks } call)
  | .doWork ticks rounds =>
    if s.irqwork then env.rtcTimerDoWork rounds { s with irqwork := false, ticks := ticks }
    else none
  | .elapse secs => some { s with clock := s.clock + secs }
  | .updateIrq => some s.scheduleIrqwork

end RtcEnv

end RealtekIpcam.Rtc
