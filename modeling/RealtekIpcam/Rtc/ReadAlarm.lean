import RealtekIpcam.Lib.Words
import RealtekIpcam.Rtc.Model

/-!
# Reading an alarm that is not complete

A driver may report an alarm without its date, or with a part of it.  `__rtc_read_alarm` fills in
what is missing from the current time, and if the result is past, goes on to the next time that
has the given fields: the same time tomorrow, or the same day of a later month, or the same date
of a later year.

The time is read before and after the alarm, until the two agree up to the minute; what is read
is given by a list of rounds.  `lib.c` is an environment, and `rtc_month_days` a parameter of it;
the loops of the rollover have a bound on their rounds.
-/

namespace RealtekIpcam.Rtc

open Words

/-- `struct rtc_time`.  The month counts from 0, and the year from 1900. -/
structure RtcTime where
  tmSec : Int
  tmMin : Int
  tmHour : Int
  tmMday : Int
  tmMon : Int
  tmYear : Int
  tmWday : Int
  tmYday : Int
  tmIsdst : Int
  deriving DecidableEq

/-- The fields that are missing: the day and what is above it, the month and the year, or the
year. -/
inductive Missing where
  | none
  | day
  | month
  | year
  deriving DecidableEq

def isLeapYear (year : Nat) : Bool := (year % 4 = 0 && year % 100 ≠ 0) || year % 400 = 0

/-- Missing fields are filled in from the current time. -/
def fillMissing (t now : RtcTime) : RtcTime × Missing :=
  let t := { t with
    tmSec := if t.tmSec = -1 then now.tmSec else t.tmSec
    tmMin := if t.tmMin = -1 then now.tmMin else t.tmMin
    tmHour := if t.tmHour = -1 then now.tmHour else t.tmHour }
  let (t, missing) :=
    if t.tmMday < 1 ∨ t.tmMday > 31 then ({ t with tmMday := now.tmMday }, Missing.day)
    else (t, Missing.none)
  let (t, missing) :=
    if 12 ≤ u32 t.tmMon then
      ({ t with tmMon := now.tmMon }, if missing = .none then .month else missing)
    else (t, missing)
  if t.tmYear = -1 then
    ({ t with tmYear := now.tmYear }, if missing = .none then .year else missing)
  else (t, missing)

def RtcTime.nextMonth (t : RtcTime) : RtcTime :=
  if t.tmMon < 11 then { t with tmMon := t.tmMon + 1 }
  else { t with tmMon := 0, tmYear := t.tmYear + 1 }

/-- The loop of the month rollover.  `rtc_month_days` gets the year as it is in the alarm. -/
def rolloverMonth (rtcMonthDays : Nat → Nat → Nat) : Nat → RtcTime → Option RtcTime
  | 0, _ => none
  | n + 1, t =>
    let t := t.nextMonth
    if rtcMonthDays (u32 t.tmMon) (u32 t.tmYear) < u32 t.tmMday then rolloverMonth rtcMonthDays n t
    else some t

namespace RtcEnv

variable (env : RtcEnv RtcTime) (rtcMonthDays : Nat → Nat → Nat)

def rolloverYear : Nat → RtcTime → Option RtcTime
  | 0, _ => none
  | n + 1, t =>
    let t := { t with tmYear := t.tmYear + 1 }
    if !isLeapYear (u32 (t.tmYear + 1900)) && !env.validTm t then rolloverYear n t else some t

/-- The rollover of an alarm that is past. -/
def rollover (fuel : Nat) (missing : Missing) (t : RtcTime) : Option RtcTime :=
  match missing with
  | .day => some (env.time64ToTm (env.tmToTime64 t + 24 * 60 * 60))
  | .month => rolloverMonth rtcMonthDays fuel t
  | .year => env.rolloverYear fuel t
  | .none => some t

/-- What `rtc_valid_tm` returns. -/
def validErr (t : RtcTime) : Int := if env.validTm t then 0 else - EINVAL

/-- From an alarm that is not complete, and the current time, to one that is to come. -/
def completeAlarm (fuel : Nat) (alarm : RtcWkalrm RtcTime) (now : RtcTime) :
    Option (Int × RtcWkalrm RtcTime) :=
  let (t, missing) := fillMissing alarm.time now
  if !env.validTm t then some (- EINVAL, { alarm with time := t })
  else if env.tmToTime64 now < env.tmToTime64 t then some (0, { alarm with time := t })
  else
    (env.rollover rtcMonthDays fuel missing t).map fun t =>
      (env.validErr t, { alarm with time := t })

/-- A round of reads: the alarm as `rtc_read_alarm_internal` returns it, and the time after it. -/
structure AlarmRound where
  alarm : Except Int (RtcWkalrm RtcTime)
  now : Except Int RtcTime

/-- How the reads end: with an error, with an alarm that is complete, or with one that is not
and the current time. -/
inductive AlarmReads where
  | failed (err : Int)
  | full (alarm : RtcWkalrm RtcTime)
  | incomplete (alarm : RtcWkalrm RtcTime) (now : RtcTime)

/-- The loop that reads the alarm, until the time before and after it agree.  There is no result
as long as they do not. -/
def readRounds : RtcTime → List AlarmRound → Option AlarmReads
  | _, [] => none
  | before, round :: rounds =>
    match round.alarm with
    | .error err => some (.failed err)
    | .ok alarm =>
      if env.validTm alarm.time then
        some (.full { alarm with time := env.rtcAddOffset alarm.time })
      else
        match round.now with
        | .error err => some (.failed err)
        | .ok now =>
          if before.tmMin ≠ now.tmMin ∨ before.tmHour ≠ now.tmHour ∨ before.tmMon ≠ now.tmMon ∨
              before.tmYear ≠ now.tmYear then readRounds now rounds
          else some (.incomplete alarm now)

/-- `__rtc_read_alarm`, with the time that is read first. -/
def readAlarm (fuel : Nat) (first : Except Int RtcTime) (rounds : List AlarmRound) :
    Option (Int × Option (RtcWkalrm RtcTime)) :=
  match first with
  | .error err => some (err, none)
  | .ok before =>
    (env.readRounds before rounds).bind fun reads =>
      match reads with
      | .failed err => some (err, none)
      | .full alarm => some (0, some alarm)
      | .incomplete alarm now =>
        (env.completeAlarm rtcMonthDays fuel alarm now).map fun (err, alarm) => (err, some alarm)

end RtcEnv

end RealtekIpcam.Rtc
