import RealtekIpcam.Lib.BitField
import RealtekIpcam.Lib.Runs
import RealtekIpcam.Rtc.Model

/-!
# The alarm of the driver

The hardware has four alarms, and the driver uses the last of them.  The core sets it with
`set_alarm`, which also says whether the alarm is enabled, and switches its interrupt with
`alarm_irq_enable`; it has to be told of each alarm that goes off with `rtc_update_irq`.

The driver follows none of this.  `rts_rtc_set_alarm` writes the time and leaves the enable bit
alone.  `rts_rtc_alarm_irq_enable` sets the bit whatever it is asked for.  The interrupt handler
acknowledges the alarm, and where it is to call `rtc_update_irq` the name of the function is
missing: what is left is a comma expression that has no effect.

The registers of the hardware are read in the handler only, so what the handler reads comes with
the interrupt.
-/

namespace RealtekIpcam.Rtc

open Runs BitField

def alarm3Enable : Nat := 3

/-- `RTC_IRQF | RTC_AF`. -/
def alarmEvents : BitVec 32 := 0x80 ||| 0x20

/-- `struct rts_rtc`, whether `rtc` is set in it, the registers `XB2_RTC_ALARM_EN` and
`XB2_RTC_ALARM3_SECOND`, what was written to `XB2_RTC_ALARM_INT_FLAG`, and how often
`rtc_update_irq` was called. -/
structure RtsRtc where
  irq : Int
  rtc : Bool
  alarmEn : BitVec 32
  alarm3Second : BitVec 32
  intFlagWrites : List (BitVec 32)
  updates : Nat

namespace RtsRtc

def alarm3Enabled (s : RtsRtc) : Bool := s.alarmEn.getLsbD alarm3Enable

/-- The statement `(pdata->rtc, 1, events);`.  Its operands are evaluated, and nothing is
called. -/
def commaExpression (s : RtsRtc) (_num : Nat) (_events : BitVec 32) : RtsRtc := s

end RtsRtc

variable {Tm : Type}

/-- `rts_rtc_set_alarm`.  The register has the lower half of the seconds. -/
def rtsRtcSetAlarm (env : RtcEnv Tm) (alrm : RtcWkalrm Tm) (s : RtsRtc) : Int × RtsRtc :=
  (0, { s with alarm3Second := (env.tmToTime64 alrm.time).toBitVec.setWidth 32 })

/-- `rts_rtc_alarm_irq_enable`, which does not look at its argument. -/
def rtsRtcAlarmIrqEnable (_enabled : Bool) (s : RtsRtc) : Int × RtsRtc :=
  if s.irq ≤ 0 then (- EINVAL, s)
  else (0, { s with alarmEn := setBit s.alarmEn alarm3Enable })

/-- `rts_rtc_interrupt`, with what it reads from the flags: at first, and again to acknowledge the
alarm.  It answers whether the interrupt was handled. -/
def rtsRtcInterrupt (flags again : BitVec 32) (s : RtsRtc) : Bool × RtsRtc :=
  if flags &&& (1#32 <<< alarm3Enable) = 0 then (false, s)
  else
    let s := { s with intFlagWrites := s.intFlagWrites ++ [setBit again alarm3Enable] }
    let s := if s.rtc then s.commaExpression 1 alarmEvents else s
    (alarmEvents ≠ 0, s)

/-! ## Runs -/

/-- What happens to the driver: the two calls of the core, and the interrupt. -/
inductive AlarmEvent (Tm : Type) where
  | setAlarm (alrm : RtcWkalrm Tm)
  | irqEnable (enabled : Bool)
  | interrupt (flags again : BitVec 32)

/-- A run of the driver, with what the core goes by: whether the last of the two calls asked for
the alarm to be enabled, the time that was set last, and how many alarms have gone off. -/
structure AlarmRun (Tm : Type) where
  rtc : RtsRtc
  asked : Option Bool
  time : Option Tm
  due : Nat

/-- A run that starts with the driver in a state. -/
def AlarmRun.start (s : RtsRtc) : AlarmRun Tm := ⟨s, none, none, s.updates⟩

variable (env : RtcEnv Tm)

/-- What an event does. -/
def alarmStep (s : AlarmRun Tm) : AlarmEvent Tm → Option (AlarmRun Tm)
  | .setAlarm alrm => some
      { s with
        rtc := (rtsRtcSetAlarm env alrm s.rtc).2
        asked := some alrm.enabled
        time := some alrm.time }
  | .irqEnable enabled => some
      { s with
        rtc := (rtsRtcAlarmIrqEnable enabled s.rtc).2
        asked := some enabled }
  | .interrupt flags again => some
      { s with
        rtc := (rtsRtcInterrupt flags again s.rtc).2
        due := s.due + if flags.getLsbD alarm3Enable then 1 else 0 }

/-- What the core expects of the driver. -/
structure Delivered (s : AlarmRun Tm) : Prop where
  enabled : ∀ b ∈ s.asked, s.rtc.alarm3Enabled = b
  second : ∀ tm ∈ s.time, (s.rtc.alarm3Second.toNat : Int) = (env.tmToTime64 tm).toInt
  updates : s.rtc.updates = s.due

/-- An event that the driver is right about: `set_alarm` asks for the enable bit as it is, with a
time that fits the register; `alarm_irq_enable` asks for the bit to be set and it can be or is set
already, or for it to be clear and it is and cannot be set; the interrupt is that of another
alarm. -/
def StepOk (s : AlarmRun Tm) : AlarmEvent Tm → Prop
  | .setAlarm alrm => s.rtc.alarm3Enabled = alrm.enabled ∧
      0 ≤ (env.tmToTime64 alrm.time).toInt ∧ (env.tmToTime64 alrm.time).toInt < 4294967296
  | .irqEnable true => 0 < s.rtc.irq ∨ s.rtc.alarm3Enabled = true
  | .irqEnable false => s.rtc.irq ≤ 0 ∧ s.rtc.alarm3Enabled = false
  | .interrupt flags _ => flags.getLsbD alarm3Enable = false

/-! ## What the calls do -/

variable {env} {s t : AlarmRun Tm} {r : RtsRtc}

theorem second_eq_iff (secs : Time64) :
    ((secs.toBitVec.setWidth 32).toNat : Int) = secs.toInt ↔
      0 ≤ secs.toInt ∧ secs.toInt < 4294967296 := by
  have hlt := secs.toBitVec.isLt
  rw [← Int64.toInt_toBitVec, BitVec.toInt_eq_toNat_cond, BitVec.toNat_setWidth]
  split <;> omega

/-- **`rts_rtc_alarm_irq_enable`** sets the enable bit if it can, whatever it is asked for. -/
theorem alarm3Enabled_alarmIrqEnable (enabled : Bool) :
    (rtsRtcAlarmIrqEnable enabled r).2.alarm3Enabled = true ↔
      0 < r.irq ∨ r.alarm3Enabled = true := by
  unfold rtsRtcAlarmIrqEnable
  by_cases hirq : r.irq ≤ 0
  · simp [if_pos hirq, Int.not_lt.mpr hirq]
  · have hset : (setBit r.alarmEn alarm3Enable).getLsbD alarm3Enable = true :=
      (getLsbD_setBit (by decide)).trans (if_pos rfl)
    simp [if_neg hirq, RtsRtc.alarm3Enabled, hset, Int.not_le.mp hirq]

theorem alarmIrqEnable_frame (enabled : Bool) :
    (rtsRtcAlarmIrqEnable enabled r).2.alarm3Second = r.alarm3Second ∧
      (rtsRtcAlarmIrqEnable enabled r).2.updates = r.updates := by
  unfold rtsRtcAlarmIrqEnable
  split <;> exact ⟨rfl, rfl⟩

theorem and_alarm3_eq_zero_iff (flags : BitVec 32) :
    flags &&& (1#32 <<< alarm3Enable) = 0 ↔ flags.getLsbD alarm3Enable = false := by
  constructor
  · intro h
    have hbit := congrArg (BitVec.getLsbD · alarm3Enable) h
    simpa [alarm3Enable] using hbit
  · intro h
    refine BitVec.eq_of_getLsbD_eq fun i hi => ?_
    rw [BitVec.getLsbD_and, getLsbD_one_shiftLeft hi, BitVec.ofNat_eq_ofNat, BitVec.getLsbD_zero]
    by_cases hne : i = alarm3Enable
    · rw [hne, h, Bool.false_and]
    · rw [decide_eq_false hne, Bool.and_false]

/-- **`rts_rtc_interrupt`** handles the interrupts of the alarm.  It writes back every flag that is
set, and changes nothing else; `rtc_update_irq` is not called. -/
theorem rtsRtcInterrupt_eq (flags again : BitVec 32) :
    rtsRtcInterrupt flags again r =
      if flags.getLsbD alarm3Enable then
        (true, { r with intFlagWrites := r.intFlagWrites ++ [setBit again alarm3Enable] })
      else (false, r) := by
  have hflag := and_alarm3_eq_zero_iff flags
  unfold rtsRtcInterrupt
  cases hset : flags.getLsbD alarm3Enable with
  | false => rw [if_pos (hflag.mpr hset), if_neg Bool.false_ne_true]
  | true =>
    rw [if_neg fun hzero => Bool.noConfusion (hset.symm.trans (hflag.mp hzero)), if_pos rfl]
    simp only [RtsRtc.commaExpression, ite_self]
    rfl

theorem interrupt_frame (flags again : BitVec 32) :
    (rtsRtcInterrupt flags again r).2.alarm3Enabled = r.alarm3Enabled ∧
      (rtsRtcInterrupt flags again r).2.alarm3Second = r.alarm3Second ∧
      (rtsRtcInterrupt flags again r).2.updates = r.updates := by
  rw [rtsRtcInterrupt_eq]
  split <;> exact ⟨rfl, rfl, rfl⟩

/-! ## Steps and runs -/

theorem delivered_start (r : RtsRtc) : Delivered env (AlarmRun.start r) :=
  ⟨nofun, nofun, rfl⟩

theorem delivered_setAlarm_iff (hs : Delivered env s) {alrm : RtcWkalrm Tm}
    (hstep : alarmStep env s (.setAlarm alrm) = some t) :
    Delivered env t ↔ StepOk env s (.setAlarm alrm) := by
  obtain ⟨⟩ := hstep
  constructor
  · intro ht
    exact ⟨ht.enabled _ rfl, (second_eq_iff _).mp (ht.second _ rfl)⟩
  · rintro ⟨henabled, hfits⟩
    refine ⟨?_, ?_, hs.updates⟩
    · rintro _ ⟨⟩
      exact henabled
    · rintro _ ⟨⟩
      exact (second_eq_iff _).mpr hfits

theorem delivered_irqEnable_iff (hs : Delivered env s) {enabled : Bool}
    (hstep : alarmStep env s (.irqEnable enabled) = some t) :
    Delivered env t ↔ StepOk env s (.irqEnable enabled) := by
  obtain ⟨⟩ := hstep
  obtain ⟨hsecond, hupdates⟩ := alarmIrqEnable_frame (r := s.rtc) enabled
  have hbit := alarm3Enabled_alarmIrqEnable (r := s.rtc) enabled
  have hdelivered : Delivered env
      { s with rtc := (rtsRtcAlarmIrqEnable enabled s.rtc).2, asked := some enabled } ↔
        (rtsRtcAlarmIrqEnable enabled s.rtc).2.alarm3Enabled = enabled := by
    constructor
    · exact fun ht => ht.enabled _ rfl
    · intro henabled
      refine ⟨?_, fun tm htm => ?_, hupdates.trans hs.updates⟩
      · rintro _ ⟨⟩
        exact henabled
      · exact (congrArg (fun v : BitVec 32 => (v.toNat : Int)) hsecond).trans (hs.second tm htm)
  rw [hdelivered]
  cases enabled with
  | true => exact hbit
  | false =>
    rw [← Bool.not_eq_true, hbit, not_or, Int.not_lt, Bool.not_eq_true]
    rfl

theorem delivered_interrupt_iff (hs : Delivered env s) {flags again : BitVec 32}
    (hstep : alarmStep env s (.interrupt flags again) = some t) :
    Delivered env t ↔ StepOk env s (.interrupt flags again) := by
  obtain ⟨⟩ := hstep
  obtain ⟨henabled, hsecond, hupdates⟩ := interrupt_frame (r := s.rtc) flags again
  constructor
  · intro ht
    have hcount : (rtsRtcInterrupt flags again s.rtc).2.updates =
        s.due + if flags.getLsbD alarm3Enable then 1 else 0 := ht.updates
    rw [hupdates, hs.updates] at hcount
    refine Bool.eq_false_iff.mpr fun hflag => ?_
    rw [if_pos hflag] at hcount
    omega
  · intro hflag
    have hdue : (s.due + if flags.getLsbD alarm3Enable then 1 else 0) = s.due := by
      rw [if_neg (Bool.eq_false_iff.mp hflag)]
      rfl
    refine ⟨fun b hb => henabled.trans (hs.enabled b hb), fun tm htm => ?_, ?_⟩
    · exact (congrArg (fun v : BitVec 32 => (v.toNat : Int)) hsecond).trans (hs.second tm htm)
    · exact (hupdates.trans hs.updates).trans hdue.symm

/-- **One step.**  From a state that is as the core expects, an event leads to another one just
when it is one that the driver is right about. -/
theorem delivered_step_iff (hs : Delivered env s) (e : AlarmEvent Tm) :
    (∀ t, alarmStep env s e = some t → Delivered env t) ↔ StepOk env s e := by
  have hone : ∀ t, alarmStep env s e = some t → (Delivered env t ↔ StepOk env s e) := by
    intro t hstep
    cases e with
    | setAlarm alrm => exact delivered_setAlarm_iff hs hstep
    | irqEnable enabled => exact delivered_irqEnable_iff hs hstep
    | interrupt flags again => exact delivered_interrupt_iff hs hstep
  constructor
  · intro h
    cases e <;> exact (hone _ rfl).mp (h _ rfl)
  · exact fun h t hstep => (hone t hstep).mpr h

/-- **Delivery of alarms.**  In every state of a run the enable bit is what the last call asked
for, the register has the time that was set last, and the core was told of each alarm once, just
when the driver is right about every event of the run. -/
theorem delivered_iff (env : RtcEnv Tm) (r : RtsRtc) (es : List (AlarmEvent Tm)) :
    (∀ es₁ es₂ t, es = es₁ ++ es₂ → exec (alarmStep env) (AlarmRun.start r) es₁ = some t →
      Delivered env t) ↔ Along (alarmStep env) (StepOk env) (AlarmRun.start r) es := by
  rw [forall_reached_iff, and_iff_right (delivered_start r)]
  exact Along.congr (P := Delivered env) (fun _ _ t _ hnext hstep => hnext t hstep)
    (fun _ e hs => delivered_step_iff hs e) (delivered_start r)

/-- An RTC whose times are their seconds. -/
def secondsEnv : RtcEnv Time64 where
  validTm _ := true
  tmToTime64 tm := tm
  time64ToTm secs := secs
  tmToKtime tm := tm * 1000000000
  ktimeToTm k := k / 1000000000
  timerqueueAdd _ t q := t :: q
  driverReadTime clock := Int64.ofInt clock
  rangeMin := 0
  rangeMax := 0
  startSecs := 0
  offsetSecs := 0
  setStartTime := false
  uieUnsupported := false

/-- An alarm is armed, goes off, and is disarmed: the core was not told, and the alarm is still
enabled. -/
theorem not_delivered_oneAlarm : ∃ t,
    exec (alarmStep secondsEnv) (AlarmRun.start ⟨17, true, 0, 0, [], 0⟩)
      [.irqEnable true, .setAlarm ⟨true, 100⟩, .interrupt 8 8, .irqEnable false] = some t ∧
    t.asked = some false ∧ t.rtc.alarm3Enabled = true ∧ t.due = 1 ∧ t.rtc.updates = 0 ∧
    ¬ ∀ es₁ es₂ u, [.irqEnable true, .setAlarm ⟨true, 100⟩, .interrupt 8 8, .irqEnable false] =
        es₁ ++ es₂ →
      exec (alarmStep secondsEnv) (AlarmRun.start ⟨17, true, 0, 0, [], 0⟩) es₁ = some u →
        Delivered secondsEnv u := by
  refine ⟨_, rfl, rfl, by decide +kernel, by decide +kernel, by decide +kernel, fun h => ?_⟩
  have hend := h _ [] _ (List.append_nil _).symm rfl
  exact absurd hend.updates (by decide +kernel)

end RealtekIpcam.Rtc
