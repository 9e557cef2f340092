import RealtekIpcam.Lib.Calendar
import RealtekIpcam.Rtc.ReadAlarm

/-!
# The next time an alarm is due

An alarm that lacks a part of its date stands for the next time that has the fields it gives.
`__rtc_read_alarm` finds it by the calendar: tomorrow, or the next month that is long enough for
the day, or the next year that has the date.

The month rollover asks `rtc_month_days` for the length of a month of the year `tm_year`, which
counts from 1900.  So it is wrong about February in the years where the two are not both leap
years or both none: 2000 counts as short, and 2300 as long.
-/

namespace RealtekIpcam.Rtc

open Words Calendar

/-! ## Times -/

namespace RtcTime

variable (t : RtcTime)

/-- The month of a time, from the year 0 on. -/
def month : Int := 12 * (t.tmYear + 1900) + t.tmMon

/-- The time of the day, in seconds. -/
def clock : Int := 3600 * t.tmHour + 60 * t.tmMin + t.tmSec

def day : Int := dayNumber t.month t.tmMday

/-- The seconds since 1970. -/
def secs : Int := 86400 * (t.day - 719529) + t.clock

/-- A time that `rtc_valid_tm` accepts, up to a last year. -/
@[mk_iff valid_iff]
structure Valid (last : Int) : Prop where
  year : 70 ≤ t.tmYear ∧ t.tmYear ≤ last
  mon : 0 ≤ t.tmMon ∧ t.tmMon < 12
  date : IsDate t.month t.tmMday
  hour : 0 ≤ t.tmHour ∧ t.tmHour < 24
  min : 0 ≤ t.tmMin ∧ t.tmMin < 60
  sec : 0 ≤ t.tmSec ∧ t.tmSec < 60

instance (last : Int) : Decidable (t.Valid last) :=
  decidable_of_iff _ (t.valid_iff last).symm

/-- The time of the day is the same. -/
structure SameClock (t t' : RtcTime) : Prop where
  hour : t'.tmHour = t.tmHour
  min : t'.tmMin = t.tmMin
  sec : t'.tmSec = t.tmSec

/-- The date and the time of the day are the same. -/
structure SameTime (t t' : RtcTime) : Prop extends SameClock t t' where
  year : t'.tmYear = t.tmYear
  mon : t'.tmMon = t.tmMon
  mday : t'.tmMday = t.tmMday

variable {t} {t' : RtcTime} {last : Int}

theorem Valid.clock_bounds (h : t.Valid last) : 0 ≤ t.clock ∧ t.clock < 86400 := by
  have hhour := h.hour
  have hmin := h.min
  have hsec := h.sec
  unfold clock
  omega

theorem SameClock.clock (h : SameClock t t') : t'.clock = t.clock := by
  rw [RtcTime.clock, h.hour, h.min, h.sec, RtcTime.clock]

theorem secs_lt_of_day (h : t.Valid last) (h' : t'.Valid last) (hday : t.day < t'.day) :
    t.secs < t'.secs := by
  have hclock := h.clock_bounds
  have hclock' := h'.clock_bounds
  unfold secs
  omega

theorem SameClock.trans {t'' : RtcTime} (h : SameClock t t') (h' : SameClock t' t'') :
    SameClock t t'' :=
  ⟨h'.hour.trans h.hour, h'.min.trans h.min, h'.sec.trans h.sec⟩

theorem SameClock.secs_lt_iff (h : SameClock t t') : t.secs < t'.secs ↔ t.day < t'.day := by
  unfold secs
  rw [h.clock]
  omega

theorem day_lt_iff (h : t.Valid last) (h' : t'.Valid last) :
    t.day < t'.day ↔ t.month < t'.month ∨ t.month = t'.month ∧ t.tmMday < t'.tmMday :=
  dayNumber_lt_iff h.date h'.date

theorem Valid.secs_bounds (h : t.Valid last) (hlast : last ≤ 2147481747) :
    0 ≤ t.secs ∧ t.secs + 86400 < 2 ^ 63 := by
  have hclock := h.clock_bounds
  have hyear := h.year
  have hmon := h.mon
  have hdate := h.date
  have hlen := monthLen_bounds t.month
  have hdiv : t.month / 12 = t.tmYear + 1900 := by unfold month; omega
  have hmod : t.month % 12 = t.tmMon := by unfold month; omega
  have hstart : yearStart (t.tmYear + 1900) ≤ monthStart t.month ∧
      monthStart t.month ≤ yearStart (t.tmYear + 1900) + 336 := by
    unfold monthStart
    rw [hdiv, hmod]
    generalize yearStart _ = y
    split <;> (try split) <;> omega
  have hlo : 719528 ≤ yearStart (t.tmYear + 1900) := by unfold yearStart; omega
  have hhi : yearStart (t.tmYear + 1900) ≤ 366 * 2147483648 := by unfold yearStart; omega
  unfold IsDate at hdate
  unfold secs day dayNumber
  omega

end RtcTime

/-! ## What is relied on -/

open RtcTime

/-- What `lib.c` does: `rtc_valid_tm` accepts the times of the calendar from 1970 up to a last
year, the two conversions count seconds, and `rtc_month_days` takes a year of the calendar. -/
structure CalendarLaws (env : RtcEnv RtcTime) (rtcMonthDays : Nat → Nat → Nat) (last : Int) :
    Prop where
  last_le : last ≤ 2147481747
  validTm_iff : ∀ t, env.validTm t = true ↔ t.Valid last
  toTime64 : ∀ t, t.Valid last → (env.tmToTime64 t).toInt = t.secs
  toTm : ∀ t, t.Valid last → SameTime t (env.time64ToTm (env.tmToTime64 t))
  monthDays : ∀ m y : Nat, m < 12 → (rtcMonthDays m y : Int) = monthLen (12 * y + m)

/-- The fields that an alarm gives are those of a time. -/
structure Agrees (missing : Missing) (alarm t : RtcTime) : Prop extends SameClock alarm t where
  mday : missing ≠ .day → t.tmMday = alarm.tmMday
  mon : missing ≠ .day → missing ≠ .month → t.tmMon = alarm.tmMon
  year : missing = .none → t.tmYear = alarm.tmYear

/-- A time that is to come and has the fields that an alarm gives. -/
structure Later (last : Int) (missing : Missing) (alarm now t : RtcTime) : Prop where
  valid : t.Valid last
  agrees : Agrees missing alarm t
  after : now.secs < t.secs

/-- The first of them. -/
structure Earliest (last : Int) (missing : Missing) (alarm now t : RtcTime) : Prop
    extends Later last missing alarm now t where
  least : ∀ t', Later last missing alarm now t' → t.secs ≤ t'.secs

/-- The time of the day is given, and just the fields that `missing` says are missing. -/
structure Lacks (alarm : RtcTime) (missing : Missing) : Prop where
  clock : alarm.tmSec ≠ -1 ∧ alarm.tmMin ≠ -1 ∧ alarm.tmHour ≠ -1
  year : alarm.tmYear = -1
  mon : 12 ≤ u32 alarm.tmMon ↔ missing = .day ∨ missing = .month
  mday : (alarm.tmMday < 1 ∨ alarm.tmMday > 31) ↔ missing = .day
  ne_none : missing ≠ .none

/-- An alarm with the current date in the place of what is missing. -/
structure Filled (missing : Missing) (alarm now t : RtcTime) : Prop where
  agrees : Agrees missing alarm t
  year : t.tmYear = now.tmYear
  mon : missing ≠ .year → t.tmMon = now.tmMon
  mday : missing = .day → t.tmMday = now.tmMday

variable {env : RtcEnv RtcTime} {rtcMonthDays : Nat → Nat → Nat} {last : Int}
  {missing : Missing} {alarm now t t' : RtcTime}

theorem fillMissing_eq (now : RtcTime) (h : Lacks alarm missing) :
    (fillMissing alarm now).2 = missing ∧ Filled missing alarm now (fillMissing alarm now).1 := by
  obtain ⟨⟨hsec, hmin, hhour⟩, hyear, hmon, hmday, hnone⟩ := h
  cases missing with
  | none => exact absurd rfl hnone
  | day =>
    have hmon := hmon.mpr (Or.inl rfl)
    have hmday := hmday.mpr rfl
    simp only [fillMissing, hsec, hmin, hhour, hyear, hmon, hmday, if_true, if_false,
      reduceCtorEq]
    exact ⟨trivial, ⟨⟨⟨rfl, rfl, rfl⟩, fun h => absurd rfl h, fun h => absurd rfl h, nofun⟩, rfl,
      fun _ => rfl, fun _ => rfl⟩⟩
  | month =>
    have hmon := hmon.mpr (Or.inr rfl)
    have hmday := mt hmday.mp (by decide)
    simp only [fillMissing, hsec, hmin, hhour, hyear, hmon, hmday, if_true, if_false]
    exact ⟨rfl, ⟨⟨⟨rfl, rfl, rfl⟩, fun _ => rfl, fun _ h => absurd rfl h, nofun⟩, rfl,
      fun _ => rfl, nofun⟩⟩
  | year =>
    have hmon := mt hmon.mp (by decide)
    have hmday := mt hmday.mp (by decide)
    simp only [fillMissing, hsec, hmin, hhour, hyear, hmon, hmday, if_true, if_false]
    exact ⟨trivial, ⟨⟨⟨rfl, rfl, rfl⟩, fun _ => rfl, fun _ _ => rfl, nofun⟩, rfl,
      fun h => absurd rfl h, nofun⟩⟩

theorem Agrees.sameClock (h : Agrees missing alarm t) (h' : Agrees missing alarm t') :
    SameClock t t' :=
  ⟨h'.hour.trans h.hour.symm, h'.min.trans h.min.symm, h'.sec.trans h.sec.symm⟩

/-- A time with the given fields is on the same side of the day that was filled in as of today,
unless it is on that day. -/
theorem Filled.day_lt (hfill : Filled missing alarm now t) (hnone : missing ≠ .none)
    (hnow : now.Valid last) (ht : t.Valid last) (ht' : t'.Valid last)
    (hagrees : Agrees missing alarm t') :
    (t.day < t'.day → now.day < t'.day) ∧ (t'.day < t.day → t'.day < now.day) := by
  have hmon := ht.mon
  have hmon' := ht'.mon
  have hnowMon := hnow.mon
  rw [day_lt_iff ht ht', day_lt_iff hnow ht', day_lt_iff ht' ht, day_lt_iff ht' hnow]
  have hyear := hfill.year
  unfold month
  cases missing with
  | none => exact absurd rfl hnone
  | day =>
    have hsame := hfill.mon (by decide)
    have hmday := hfill.mday rfl
    omega
  | month =>
    have hsame := hfill.mon (by decide)
    have hmday := hfill.agrees.mday (by decide)
    have hmday' := hagrees.mday (by decide)
    omega
  | year =>
    have hsame := hfill.agrees.mon (by decide) (by decide)
    have hsame' := hagrees.mon (by decide) (by decide)
    have hmday := hfill.agrees.mday (by decide)
    have hmday' := hagrees.mday (by decide)
    omega

theorem Filled.earliest (hfill : Filled missing alarm now t) (hnone : missing ≠ .none)
    (hnow : now.Valid last) (ht : t.Valid last) (hafter : now.secs < t.secs) :
    Earliest last missing alarm now t := by
  refine ⟨⟨ht, hfill.agrees, hafter⟩, fun t' hlater => ?_⟩
  by_contra hlt
  have hday := (hlater.agrees.sameClock hfill.agrees).secs_lt_iff.mp (Int.not_le.mp hlt)
  have hpast := (hfill.day_lt hnone hnow ht hlater.valid hlater.agrees).2 hday
  exact Int.lt_asymm hlater.after (secs_lt_of_day hlater.valid hnow hpast)

theorem Filled.later_iff (hfill : Filled missing alarm now t) (hnone : missing ≠ .none)
    (hnow : now.Valid last) (ht : t.Valid last) (hpast : t.secs ≤ now.secs) :
    Later last missing alarm now t' ↔
      t'.Valid last ∧ Agrees missing alarm t' ∧ t.day < t'.day := by
  constructor
  · intro hlater
    refine ⟨hlater.valid, hlater.agrees, ?_⟩
    exact (hfill.agrees.sameClock hlater.agrees).secs_lt_iff.mp
      (Int.lt_of_le_of_lt hpast hlater.after)
  · rintro ⟨ht', hagrees, hday⟩
    exact ⟨ht', hagrees,
      secs_lt_of_day hnow ht' ((hfill.day_lt hnone hnow ht ht' hagrees).1 hday)⟩

theorem Filled.earliest_of_day (hfill : Filled missing alarm now t) (hnone : missing ≠ .none)
    (hnow : now.Valid last) (ht : t.Valid last) (hpast : t.secs ≤ now.secs)
    (ht' : t'.Valid last) (hagrees : Agrees missing alarm t') (hday : t.day < t'.day)
    (hleast : ∀ u : RtcTime, u.Valid last → Agrees missing alarm u → t.day < u.day →
      t'.day ≤ u.day) :
    Earliest last missing alarm now t' := by
  have hiff := @Filled.later_iff last missing alarm now t
  refine ⟨(hiff hfill hnone hnow ht hpast).mpr ⟨ht', hagrees, hday⟩, fun u hlater => ?_⟩
  obtain ⟨hu, huAgrees, huDay⟩ := (hiff hfill hnone hnow ht hpast).mp hlater
  refine Int.not_lt.mp fun hlt => ?_
  have hless := (huAgrees.sameClock hagrees).secs_lt_iff.mp hlt
  exact Int.not_lt.mpr (hleast u hu huAgrees huDay) hless

/-! ## Tomorrow -/

namespace RtcTime

theorem SameTime.month_eq (h : SameTime t t') : t'.month = t.month := by
  rw [RtcTime.month, h.year, h.mon, RtcTime.month]

theorem SameTime.day_eq (h : SameTime t t') : t'.day = t.day := by
  rw [RtcTime.day, h.month_eq, h.mday, RtcTime.day]

theorem SameTime.valid (h : SameTime t t') (ht : t.Valid last) : t'.Valid last := by
  refine ⟨?_, ?_, ?_, ?_, ?_, ?_⟩
  · rw [h.year]
    exact ht.year
  · rw [h.mon]
    exact ht.mon
  · rw [h.month_eq, h.mday]
    exact ht.date
  · rw [h.hour]
    exact ht.hour
  · rw [h.min]
    exact ht.min
  · rw [h.sec]
    exact ht.sec

/-- The same time on the next day. -/
def tomorrow (t : RtcTime) : RtcTime :=
  { t with
    tmMday := (nextDay t.month t.tmMday).2
    tmMon := (nextDay t.month t.tmMday).1 % 12
    tmYear := (nextDay t.month t.tmMday).1 / 12 - 1900 }

theorem month_tomorrow (t : RtcTime) : t.tomorrow.month = (nextDay t.month t.tmMday).1 := by
  simp only [tomorrow, month]
  omega

theorem day_tomorrow (ht : t.Valid last) : t.tomorrow.day = t.day + 1 := by
  rw [day, month_tomorrow]
  exact dayNumber_nextDay ht.date

theorem tomorrow_valid (ht : t.Valid last) (ht' : t'.Valid last) (hday : t.day < t'.day) :
    t.tomorrow.Valid last := by
  have hdate := nextDay_isDate ht.date
  have hmonth := month_tomorrow t
  have hle : t.tomorrow.month ≤ t'.month := by
    refine Int.not_lt.mp fun hlt => ?_
    rw [hmonth] at hlt
    have hback := dayNumber_lt_of_lt ht'.date.2 hdate.1 hlt
    have htomorrow := dayNumber_nextDay ht.date
    unfold day at hday
    omega
  have hge : t.month ≤ t.tomorrow.month := by
    rw [hmonth, nextDay]
    split <;> simp only <;> omega
  have hyear := ht.year
  have hyear' := ht'.year
  have hmon := ht.mon
  have hmon' := ht'.mon
  have htomorrowMon : 0 ≤ t.tomorrow.tmMon ∧ t.tomorrow.tmMon < 12 := by
    simp only [tomorrow]
    omega
  refine ⟨?_, htomorrowMon, ?_, ht.hour, ht.min, ht.sec⟩
  · unfold month at hle hge
    omega
  · rw [hmonth]
    exact hdate

end RtcTime

variable (laws : CalendarLaws env rtcMonthDays last)
include laws

theorem tmToTime64_tomorrow (ht : t.Valid last) (htomorrow : t.tomorrow.Valid last) :
    env.tmToTime64 t + 24 * 60 * 60 = env.tmToTime64 t.tomorrow := by
  have hbounds := ht.secs_bounds laws.last_le
  have hday := day_tomorrow ht
  have hsecs : t.tomorrow.secs = t.secs + 86400 := by
    rw [secs, hday, show t.tomorrow.clock = t.clock from rfl, secs]
    omega
  refine Int64.toInt_inj.mp ?_
  rw [Int64.toInt_add, laws.toTime64 t ht, laws.toTime64 _ htomorrow, hsecs,
    show (24 * 60 * 60 : Int64).toInt = 86400 from rfl]
  exact bmod_of_fits (by omega) hbounds.2

theorem rollover_day_iff (hfill : Filled .day alarm now t) (hnow : now.Valid last)
    (ht : t.Valid last) (hpast : t.secs ≤ now.secs) :
    Earliest last .day alarm now (env.time64ToTm (env.tmToTime64 t + 24 * 60 * 60)) ↔
      ∃ u, Later last .day alarm now u := by
  constructor
  · intro hearliest
    exact ⟨_, hearliest.toLater⟩
  · rintro ⟨u, hlater⟩
    have hu := (hfill.later_iff (by decide) hnow ht hpast).mp hlater
    have htomorrow := tomorrow_valid ht hu.1 hu.2.2
    have hsame := laws.toTm _ htomorrow
    rw [tmToTime64_tomorrow laws ht htomorrow]
    have hday : (env.time64ToTm (env.tmToTime64 t.tomorrow)).day = t.day + 1 :=
      hsame.day_eq.trans (day_tomorrow ht)
    have hagrees : Agrees .day alarm (env.time64ToTm (env.tmToTime64 t.tomorrow)) :=
      ⟨⟨hsame.hour.trans hfill.agrees.hour, hsame.min.trans hfill.agrees.min,
        hsame.sec.trans hfill.agrees.sec⟩, fun h => absurd rfl h, fun h => absurd rfl h,
        nofun⟩
    refine hfill.earliest_of_day (by decide) hnow ht hpast (hsame.valid htomorrow) hagrees
      (by omega) fun v _ _ hv => ?_
    omega

omit laws

/-! ## A later month -/

namespace RtcTime

/-- The month that `rtc_month_days` is asked about. -/
def askedMonth (t : RtcTime) : Int := 12 * t.tmYear + t.tmMon

theorem nextMonth_spec (hmon : 0 ≤ t.tmMon ∧ t.tmMon < 12) :
    t.nextMonth.month = t.month + 1 ∧ t.nextMonth.askedMonth = t.askedMonth + 1 ∧
      (0 ≤ t.nextMonth.tmMon ∧ t.nextMonth.tmMon < 12) ∧ t.nextMonth.tmMday = t.tmMday ∧
      (t.tmYear ≤ t.nextMonth.tmYear ∧ t.nextMonth.tmYear ≤ t.tmYear + 1) ∧
      SameClock t t.nextMonth := by
  unfold nextMonth month askedMonth
  split <;> refine ⟨?_, ?_, ?_, ?_, ?_, ?_, ?_, ?_⟩ <;> simp only <;> omega

end RtcTime

/-- The month rollover skips January for February when it asks about the wrong year: on the 29th,
in the years where the two do not have the same February. -/
def LeapSlip (missing : Missing) (t : RtcTime) : Prop :=
  missing = .month ∧ t.tmMon = 0 ∧ t.tmMday = 29 ∧ (t.tmYear % 400 = 0 ∨ t.tmYear % 400 = 100)

theorem askedMonth_lt_iff (hmon : 0 ≤ t.tmMon ∧ t.tmMon < 12) (hslip : ¬LeapSlip .month t) :
    monthLen (t.askedMonth + 1) < t.tmMday ↔ monthLen (t.month + 1) < t.tmMday := by
  have hmod : (t.askedMonth + 1) % 12 = (t.month + 1) % 12 := by
    unfold askedMonth month
    omega
  by_cases hfeb : (t.askedMonth + 1) % 12 = 1
  · have hjan : t.tmMon = 0 := by
      unfold askedMonth at hfeb
      omega
    have hasked : (t.askedMonth + 1) / 12 = t.tmYear := by
      unfold askedMonth
      omega
    have hmonth : (t.month + 1) / 12 = t.tmYear + 1900 := by
      unfold month
      omega
    have hlen := monthLen_february hfeb
    have hlen' := monthLen_february (hmod.symm.trans hfeb)
    rw [hasked] at hlen
    rw [hmonth] at hlen'
    have hno : ¬(t.tmMon = 0 ∧ t.tmMday = 29 ∧ (t.tmYear % 400 = 0 ∨ t.tmYear % 400 = 100)) :=
      fun h => hslip ⟨rfl, h⟩
    unfold IsLeap at hlen hlen'
    omega
  · rw [monthLen_eq_of_ne hmod hfeb]

theorem LeapSlip.lens (hslip : LeapSlip missing t) :
    monthLen (t.askedMonth + 1) < t.tmMday ↔ t.tmMday ≤ monthLen (t.month + 1) := by
  obtain ⟨-, hjan, hmday, hyear⟩ := hslip
  have hasked : (t.askedMonth + 1) / 12 = t.tmYear ∧ (t.askedMonth + 1) % 12 = 1 := by
    unfold askedMonth
    omega
  have hmonth : (t.month + 1) / 12 = t.tmYear + 1900 ∧ (t.month + 1) % 12 = 1 := by
    unfold month
    omega
  have hlen := monthLen_february hasked.2
  have hlen' := monthLen_february hmonth.2
  rw [hasked.1] at hlen
  rw [hmonth.1] at hlen'
  unfold IsLeap at hlen hlen'
  omega

include laws in
theorem rtcMonthDays_lt_iff (hyear : 0 ≤ t.tmYear ∧ t.tmYear ≤ 2147483647)
    (hmon : 0 ≤ t.tmMon ∧ t.tmMon < 12) (hmday : 1 ≤ t.tmMday ∧ t.tmMday ≤ 31) :
    rtcMonthDays (u32 t.tmMon) (u32 t.tmYear) < u32 t.tmMday ↔
      monthLen t.askedMonth < t.tmMday := by
  rw [u32_eq hmon.1 (by omega), u32_eq hyear.1 (by omega), u32_eq (by omega) (by omega)]
  have hdays := laws.monthDays t.tmMon.toNat t.tmYear.toNat (by omega)
  rw [Int.toNat_of_nonneg hmon.1, Int.toNat_of_nonneg hyear.1] at hdays
  unfold askedMonth
  omega

/-- The month that the loop ends with: the next, or the one after it. -/
def monthAfter (t : RtcTime) : RtcTime :=
  if monthLen (t.askedMonth + 1) < t.tmMday then t.nextMonth.nextMonth else t.nextMonth

include laws in
theorem rolloverMonth_eq (ht : t.Valid last) (fuel : Nat) :
    rolloverMonth rtcMonthDays (fuel + 2) t = some (monthAfter t) := by
  have hyear := ht.year
  have hlast := laws.last_le
  have hlen := monthLen_bounds t.month
  have hmday : 1 ≤ t.tmMday ∧ t.tmMday ≤ 31 := ⟨ht.date.1, Int.le_trans ht.date.2 hlen.2⟩
  obtain ⟨-, hasked₁, hmon₁, hmday₁, hyear₁, -⟩ := nextMonth_spec ht.mon
  obtain ⟨-, hasked₂, hmon₂, hmday₂, hyear₂, -⟩ := nextMonth_spec hmon₁
  have htest₁ := rtcMonthDays_lt_iff laws (t := t.nextMonth) (by omega) hmon₁ (by omega)
  have htest₂ := rtcMonthDays_lt_iff laws (t := t.nextMonth.nextMonth) (by omega) hmon₂ (by omega)
  simp only [rolloverMonth, htest₁, htest₂, monthAfter]
  rw [hasked₂, hasked₁, hmday₂, hmday₁]
  split
  next hshort => rw [if_neg (Int.not_lt.mpr (le_monthLen_succ hmday.2 hshort))]
  next => rfl

theorem day_lt_iff_month (ht : t.Valid last) (ht' : t'.Valid last) (h : t'.tmMday = t.tmMday) :
    t.day < t'.day ↔ t.month < t'.month := by
  rw [day_lt_iff ht ht']
  omega

theorem valid_of_month (ht : t.Valid last) (ht' : t'.Valid last) {r : RtcTime}
    (hclock : SameClock t r) (hmday : r.tmMday = t.tmMday) (hmon : 0 ≤ r.tmMon ∧ r.tmMon < 12)
    (hlo : t.month ≤ r.month) (hhi : r.month ≤ t'.month) (hlong : t.tmMday ≤ monthLen r.month) :
    r.Valid last := by
  have hmin := ht.year
  have hmax := ht'.year
  have hmon₀ := ht.mon
  have hmon' := ht'.mon
  have hyear : 70 ≤ r.tmYear ∧ r.tmYear ≤ last := by
    unfold month at hlo hhi
    omega
  refine ⟨hyear, hmon, ⟨hmday ▸ ht.date.1, hmday ▸ hlong⟩, ?_, ?_, ?_⟩
  · rw [hclock.hour]
    exact ht.hour
  · rw [hclock.min]
    exact ht.min
  · rw [hclock.sec]
    exact ht.sec

theorem Agrees.of_month (h : Agrees .month alarm t) (hclock : SameClock t t')
    (hmday : t'.tmMday = t.tmMday) : Agrees .month alarm t' :=
  ⟨⟨hclock.hour.trans h.hour, hclock.min.trans h.min, hclock.sec.trans h.sec⟩,
    fun hne => hmday.trans (h.mday hne), fun _ h => absurd rfl h, nofun⟩

theorem Filled.earliest_of_month (hfill : Filled .month alarm now t) (hnow : now.Valid last)
    (ht : t.Valid last) (hpast : t.secs ≤ now.secs) (ht' : t'.Valid last)
    (hclock : SameClock t t') (hmday : t'.tmMday = t.tmMday) (hmonth : t.month < t'.month)
    (hleast : ∀ u : RtcTime, u.Valid last → u.tmMday = t.tmMday → t.month < u.month →
      t'.month ≤ u.month) :
    Earliest last .month alarm now t' := by
  refine hfill.earliest_of_day (by decide) hnow ht hpast ht' (hfill.agrees.of_month hclock hmday)
    ((day_lt_iff_month ht ht' hmday).mpr hmonth) fun u hu huAgrees huDay => ?_
  have huMday : u.tmMday = t.tmMday :=
    (huAgrees.mday (by decide)).trans (hfill.agrees.mday (by decide)).symm
  have hle := hleast u hu huMday ((day_lt_iff_month ht hu huMday).mp huDay)
  refine Int.not_lt.mp fun hlt => ?_
  exact Int.not_lt.mpr hle ((day_lt_iff_month hu ht' (hmday.trans huMday.symm)).mp hlt)

/-- **The month rollover**: the next month that is long enough, if it asks for the right
length. -/
theorem rollover_month_iff (hfill : Filled .month alarm now t) (hnow : now.Valid last)
    (ht : t.Valid last) (hpast : t.secs ≤ now.secs) :
    Earliest last .month alarm now (monthAfter t) ↔
      (∃ u, Later last .month alarm now u) ∧ ¬LeapSlip .month t := by
  obtain ⟨hmonth₁, -, hmon₁, hmday₁, -, hclock₁⟩ := nextMonth_spec ht.mon
  obtain ⟨hmonth₂, -, hmon₂, hmday₂, -, hclock₂⟩ := nextMonth_spec hmon₁
  have hlen := monthLen_bounds t.month
  have hmday : t.tmMday ≤ 31 := Int.le_trans ht.date.2 hlen.2
  constructor
  · intro hearliest
    refine ⟨⟨_, hearliest.toLater⟩, fun hslip => ?_⟩
    have hlens := hslip.lens
    have hdate := hearliest.valid.date
    unfold monthAfter at hearliest hdate
    split at hearliest
    next hshort =>
      -- The next month was skipped, though it has the day.
      have hvalid := valid_of_month ht hearliest.valid hclock₁ hmday₁ hmon₁ (by omega) (by omega)
        (hmonth₁ ▸ hlens.mp hshort)
      have hnext := hfill.earliest_of_month hnow ht hpast hvalid hclock₁ hmday₁ (by omega)
        fun u _ _ hu => by omega
      have hle := hearliest.least _ hnext.toLater
      have hlt := hclock₂.secs_lt_iff.mpr
        ((day_lt_iff_month hvalid hearliest.valid hmday₂).mpr (by omega))
      omega
    next hlong =>
      rw [if_neg hlong] at hdate
      rw [hmonth₁, hmday₁] at hdate
      exact hlong (hlens.mpr hdate.2)
  · rintro ⟨⟨u, hlater⟩, hslip⟩
    have hiff := askedMonth_lt_iff ht.mon hslip
    obtain ⟨hu, huAgrees, huDay⟩ := (hfill.later_iff (by decide) hnow ht hpast).mp hlater
    have huMday : u.tmMday = t.tmMday :=
      (huAgrees.mday (by decide)).trans (hfill.agrees.mday (by decide)).symm
    have huMonth := (day_lt_iff_month ht hu huMday).mp huDay
    unfold monthAfter
    split
    next hshort =>
      -- The next month does not have the day, and so none of those to come is in it.
      have hskip : ∀ v : RtcTime, v.Valid last → v.tmMday = t.tmMday → t.month < v.month →
          t.month + 2 ≤ v.month := by
        intro v hv hvMday hvMonth
        refine Int.not_lt.mp fun hlt => ?_
        have hsame : v.month = t.month + 1 := by omega
        have hdate := hv.date.2
        rw [hsame, hvMday] at hdate
        exact Int.not_lt.mpr hdate (hiff.mp hshort)
      have huSkip := hskip u hu huMday huMonth
      have hlong : t.tmMday ≤ monthLen t.nextMonth.nextMonth.month := by
        rw [hmonth₂, hmonth₁]
        exact le_monthLen_succ hmday (hiff.mp hshort)
      have hclock := hclock₁.trans hclock₂
      have hvalid := valid_of_month ht hu hclock (hmday₂.trans hmday₁) hmon₂ (by omega) (by omega)
        hlong
      exact hfill.earliest_of_month hnow ht hpast hvalid hclock (hmday₂.trans hmday₁) (by omega)
        fun v hv hvMday hvMonth => by
          have hle := hskip v hv hvMday hvMonth
          omega
    next hlong =>
      have hvalid := valid_of_month ht hu hclock₁ hmday₁ hmon₁ (by omega) (by omega)
        (hmonth₁ ▸ Int.not_lt.mp (mt hiff.mpr hlong))
      exact hfill.earliest_of_month hnow ht hpast hvalid hclock₁ hmday₁ (by omega)
        fun v _ _ hv => by omega

theorem isLeapYear_iff (year : Int) (h : 0 ≤ year) (hlt : year < 4294967296) :
    isLeapYear (u32 year) = true ↔ IsLeap year := by
  rw [u32_eq h hlt]
  simp only [isLeapYear, IsLeap, Bool.or_eq_true, Bool.and_eq_true, decide_eq_true_eq, ne_eq]
  omega

/-- The search for a year ends at one that has the date, or at a leap year. -/
theorem rolloverYear_spec (env : RtcEnv RtcTime) (fuel : Nat) (t : RtcTime) (n : Nat)
    (hn : 1 ≤ n ∧ n ≤ fuel) (hleap : IsLeap (t.tmYear + 1900 + n)) (hlo : 0 ≤ t.tmYear)
    (hhi : t.tmYear + n ≤ 2147483647) :
    ∃ y, env.rolloverYear fuel t = some { t with tmYear := y } ∧ t.tmYear < y ∧
      (IsLeap (y + 1900) ∨ env.validTm { t with tmYear := y } = true) ∧
      ∀ z, t.tmYear < z → z < y → env.validTm { t with tmYear := z } = false := by
  induction fuel generalizing t n with
  | zero => omega
  | succ fuel ih =>
    have htest := isLeapYear_iff (t.tmYear + 1 + 1900) (by omega) (by omega)
    rw [RtcEnv.rolloverYear]
    by_cases hstop : isLeapYear (u32 (t.tmYear + 1 + 1900)) = true ∨
        env.validTm { t with tmYear := t.tmYear + 1 } = true
    · refine ⟨t.tmYear + 1, ?_, by omega, hstop.imp_left htest.mp, fun z _ _ => by omega⟩
      rcases hstop with h | h <;> simp [h]
    · rw [not_or, Bool.not_eq_true, Bool.not_eq_true] at hstop
      have hnext : n ≠ 1 := by
        rintro rfl
        rw [Bool.eq_false_iff, ne_eq, htest] at hstop
        refine hstop.1 ?_
        rwa [show t.tmYear + 1 + 1900 = t.tmYear + 1900 + (1 : Nat) by omega]
      obtain ⟨y, hresult, hlt, hend, hbetween⟩ := ih { t with tmYear := t.tmYear + 1 } (n - 1)
        (by omega) (by
          rw [show (t.tmYear + 1 : Int) + 1900 + (n - 1 : Nat) = t.tmYear + 1900 + n by omega]
          exact hleap) (by simp only; omega) (by simp only; omega)
      refine ⟨y, ?_, Int.lt_trans (Int.lt_succ _) hlt, hend, fun z hz hzy => ?_⟩
      · simp only [hstop.1, hstop.2, Bool.not_false, Bool.and_self, if_true]
        exact hresult
      · rcases Int.lt_or_eq_of_le (Int.add_one_le_of_lt hz) with hgt | heq
        · exact hbetween z hgt hzy
        · exact heq ▸ hstop.2

theorem Agrees.of_year (h : Agrees .year alarm t) (y : Int) :
    Agrees .year alarm { t with tmYear := y } :=
  ⟨⟨h.hour, h.min, h.sec⟩, h.mday, h.mon, nofun⟩

include laws in
/-- **The year** rolls over to the next one that has the day. -/
theorem rollover_year (hfill : Filled .year alarm now t) (hnow : now.Valid last)
    (ht : t.Valid last) (hpast : t.secs ≤ now.secs) (fuel : Nat) (hfuel : 8 ≤ fuel) :
    ∃ r, env.rolloverYear fuel t = some r ∧
      (Earliest last .year alarm now r ↔ ∃ u, Later last .year alarm now u) := by
  obtain ⟨n, hpos, hle, hleap⟩ := exists_isLeap (t.tmYear + 1900)
  have hyear := ht.year
  have hlast := laws.last_le
  obtain ⟨y, hresult, hlt, hend, hbetween⟩ :=
    rolloverYear_spec env fuel t n ⟨hpos, by omega⟩ hleap (by omega) (by omega)
  refine ⟨_, hresult, fun hearliest => ⟨_, hearliest.toLater⟩, ?_⟩
  rintro ⟨u, hlater⟩
  have hmon := ht.mon
  -- The times that are to come differ in their year only, and it is no earlier.
  have hcome : ∀ v : RtcTime, v.Valid last → Agrees .year alarm v → t.day < v.day →
      v.tmMday = t.tmMday ∧ v.tmMon = t.tmMon ∧ y ≤ v.tmYear := by
    intro v hv hagrees hday
    have hmday : v.tmMday = t.tmMday :=
      (hagrees.mday (by decide)).trans (hfill.agrees.mday (by decide)).symm
    have hvMon : v.tmMon = t.tmMon :=
      (hagrees.mon (by decide) (by decide)).trans (hfill.agrees.mon (by decide) (by decide)).symm
    have hmonth := (day_lt_iff_month ht hv hmday).mp hday
    refine ⟨hmday, hvMon, Int.not_lt.mp fun hlt' => ?_⟩
    unfold month at hmonth
    have hinvalid := hbetween v.tmYear (by omega) hlt'
    have hsame : SameTime v { t with tmYear := v.tmYear } :=
      have hclock := hagrees.sameClock hfill.agrees
      ⟨⟨hclock.hour, hclock.min, hclock.sec⟩, rfl, hvMon.symm, hmday.symm⟩
    rw [(laws.validTm_iff _).mpr (hsame.valid hv)] at hinvalid
    cases hinvalid
  obtain ⟨hu, huAgrees, huDay⟩ := (hfill.later_iff (by decide) hnow ht hpast).mp hlater
  obtain ⟨-, -, huYear⟩ := hcome u hu huAgrees huDay
  have huLast := hu.year
  have hvalid : RtcTime.Valid { t with tmYear := y } last := by
    rcases hend with hleapYear | hvalid
    · refine ⟨⟨by simp only; omega, by simp only; omega⟩, ht.mon, ⟨ht.date.1, ?_⟩, ht.hour,
        ht.min, ht.sec⟩
      refine Int.le_trans ht.date.2 (monthLen_le_of_isLeap ?_ ?_)
      · have hdiv : RtcTime.month { t with tmYear := y } / 12 = y + 1900 := by
          simp only [month]
          omega
        rw [hdiv]
        exact hleapYear
      · simp only [month]
        omega
    · exact (laws.validTm_iff _).mp hvalid
  refine hfill.earliest_of_day (by decide) hnow ht hpast hvalid (hfill.agrees.of_year y) ?_
    fun v hv hagrees hday => ?_
  · refine (day_lt_iff_month ht hvalid rfl).mpr ?_
    simp only [month]
    omega
  · obtain ⟨hmday, hvMon, hvYear⟩ := hcome v hv hagrees hday
    refine Int.not_lt.mp fun hback => ?_
    have hmonth := (day_lt_iff_month hv hvalid hmday.symm).mp hback
    simp only [month] at hmonth
    omega

/-! ## The alarm that is read -/

section Rollover

/-- `__rtc_read_alarm` returns the first time to come that has the fields of the alarm, in a
bounded number of rounds of its loops. -/
def ReadsNext (env : RtcEnv RtcTime) (rtcMonthDays : Nat → Nat → Nat) (last : Int)
    (missing : Missing) (before : RtcTime) (rounds : List RtcEnv.AlarmRound)
    (a : RtcWkalrm RtcTime) (now : RtcTime) : Prop :=
  ∃ n, ∀ fuel ≥ n, ∃ r,
    env.readAlarm rtcMonthDays fuel (.ok before) rounds = some (0, some { a with time := r }) ∧
    Earliest last missing a.time now r

include laws

theorem rollover_iff (hfill : Filled missing alarm now t) (hnone : missing ≠ .none)
    (hnow : now.Valid last) (ht : t.Valid last) (hpast : t.secs ≤ now.secs) (fuel : Nat)
    (hfuel : 8 ≤ fuel) :
    ∃ r, env.rollover rtcMonthDays fuel missing t = some r ∧
      (Earliest last missing alarm now r ↔
        (∃ u, Later last missing alarm now u) ∧ ¬LeapSlip missing t) := by
  cases missing with
  | none => exact absurd rfl hnone
  | day =>
    refine ⟨_, rfl, ?_⟩
    rw [rollover_day_iff laws hfill hnow ht hpast]
    exact (and_iff_left fun hslip => by cases hslip.1).symm
  | month =>
    refine ⟨monthAfter t, ?_, rollover_month_iff hfill hnow ht hpast⟩
    have heq := rolloverMonth_eq laws ht (fuel - 2)
    rwa [Nat.sub_add_cancel (by omega)] at heq
  | year =>
    obtain ⟨r, hresult, hiff⟩ := rollover_year laws hfill hnow ht hpast fuel hfuel
    exact ⟨r, hresult, hiff.trans (and_iff_left fun hslip => by cases hslip.1).symm⟩

theorem completeAlarm_eq {a : RtcWkalrm RtcTime} (hlacks : Lacks a.time missing)
    (hnow : now.Valid last) (hvalid : (fillMissing a.time now).1.Valid last) (fuel : Nat) :
    env.completeAlarm rtcMonthDays fuel a now =
      if now.secs < (fillMissing a.time now).1.secs then
        some (0, { a with time := (fillMissing a.time now).1 })
      else (env.rollover rtcMonthDays fuel missing (fillMissing a.time now).1).map fun t =>
        (env.validErr t, { a with time := t }) := by
  have hmissing := (fillMissing_eq now hlacks).1
  have hlt : env.tmToTime64 now < env.tmToTime64 (fillMissing a.time now).1 ↔
      now.secs < (fillMissing a.time now).1.secs := by
    rw [Int64.lt_iff_toInt_lt, laws.toTime64 now hnow, laws.toTime64 _ hvalid]
  simp only [RtcEnv.completeAlarm, hmissing, (laws.validTm_iff _).mpr hvalid, hlt, Bool.not_true,
    Bool.false_eq_true, if_false]

omit laws in
theorem readAlarm_eq {a : RtcWkalrm RtcTime} {before : RtcTime}
    {rounds : List RtcEnv.AlarmRound}
    (hreads : env.readRounds before rounds = some (.incomplete a now)) (fuel : Nat) :
    env.readAlarm rtcMonthDays fuel (.ok before) rounds =
      (env.completeAlarm rtcMonthDays fuel a now).map fun r => (r.1, some r.2) := by
  simp only [RtcEnv.readAlarm, hreads, Option.bind_some]

theorem readsNext_iff_of_past {a : RtcWkalrm RtcTime} {before : RtcTime}
    {rounds : List RtcEnv.AlarmRound}
    (hreads : env.readRounds before rounds = some (.incomplete a now))
    (hlacks : Lacks a.time missing) (hnow : now.Valid last)
    (hvalid : (fillMissing a.time now).1.Valid last)
    (hpast : (fillMissing a.time now).1.secs ≤ now.secs) :
    ReadsNext env rtcMonthDays last missing before rounds a now ↔
      (∃ u, Later last missing a.time now u) ∧ ¬LeapSlip missing (fillMissing a.time now).1 := by
  have hfill := (fillMissing_eq now hlacks).2
  have hroll := rollover_iff laws hfill hlacks.ne_none hnow hvalid hpast
  simp only [ReadsNext, readAlarm_eq hreads, completeAlarm_eq laws hlacks hnow hvalid,
    Int.not_lt.mpr hpast, if_false]
  constructor
  · rintro ⟨n, hn⟩
    obtain ⟨r, heq, hearliest⟩ := hn (max n 8) (Nat.le_max_left n 8)
    obtain ⟨r', hresult, hiff⟩ := hroll (max n 8) (Nat.le_max_right n 8)
    rw [hresult] at heq
    simp only [Option.map_some, Option.some_inj, Prod.mk.injEq, RtcWkalrm.mk.injEq, true_and]
      at heq
    exact hiff.mp (heq.2 ▸ hearliest)
  · intro hcond
    refine ⟨8, fun fuel hfuel => ?_⟩
    obtain ⟨r, hresult, hiff⟩ := hroll fuel hfuel
    have hearliest := hiff.mpr hcond
    refine ⟨r, ?_, hearliest⟩
    rw [hresult]
    simp only [Option.map_some, RtcEnv.validErr, (laws.validTm_iff r).mpr hearliest.valid,
      if_true]

/-- **The next time of an alarm.**  When the reads settle on an alarm that lacks a part of its
date, it is completed to the first time to come with the fields that it gives, in a bounded
number of rounds, exactly if there is such a time and the month rollover does not slip. -/
theorem readAlarm_earliest_iff (a : RtcWkalrm RtcTime) {before : RtcTime}
    {rounds : List RtcEnv.AlarmRound}
    (hreads : env.readRounds before rounds = some (.incomplete a now))
    (hlacks : Lacks a.time missing) (hnow : now.Valid last)
    (hvalid : (fillMissing a.time now).1.Valid last) :
    ReadsNext env rtcMonthDays last missing before rounds a now ↔
      (∃ u, Later last missing a.time now u) ∧
        ¬((fillMissing a.time now).1.secs ≤ now.secs ∧
          LeapSlip missing (fillMissing a.time now).1) := by
  by_cases hafter : now.secs < (fillMissing a.time now).1.secs
  · have hfill := (fillMissing_eq now hlacks).2
    have hearliest := hfill.earliest hlacks.ne_none hnow hvalid hafter
    refine iff_of_true ⟨0, fun fuel _ => ⟨_, ?_, hearliest⟩⟩
      ⟨⟨_, hearliest.toLater⟩, fun h => Int.not_lt.mpr h.1 hafter⟩
    rw [readAlarm_eq hreads, completeAlarm_eq laws hlacks hnow hvalid, if_pos hafter,
      Option.map_some]
  · have hpast := Int.not_lt.mp hafter
    rw [readsNext_iff_of_past laws hreads hlacks hnow hvalid hpast]
    simp only [hpast, true_and]

end Rollover

/-! ## A calendar that is computed -/

/-- The time a number of seconds after 1970. -/
def ofSecs (x : Int) : RtcTime :=
  let date := dateAfter (12 * 1970) 1 (x / 86400).toNat
  { tmSec := x % 60
    tmMin := x / 60 % 60
    tmHour := x / 3600 % 24
    tmMday := date.2
    tmMon := date.1 % 12
    tmYear := date.1 / 12 - 1900
    tmWday := (x / 86400 + 4) % 7
    tmYday := dayNumber date.1 date.2 - yearStart (date.1 / 12) - 1
    tmIsdst := 0 }

/-- An RTC with the calendar, up to the year that `tm_year` can hold. -/
def calendarEnv : RtcEnv RtcTime where
  validTm t := decide (t.Valid 2147481747)
  tmToTime64 t := Int64.ofInt t.secs
  time64ToTm x := ofSecs x.toInt
  tmToKtime t := Int64.ofInt (t.secs * 1000000000)
  ktimeToTm k := ofSecs ((k.toInt + 999999999) / 1000000000)
  timerqueueAdd _ t q := t :: q
  driverReadTime clock := ofSecs clock
  rangeMin := 0
  rangeMax := 0
  startSecs := 0
  offsetSecs := 0
  setStartTime := false
  uieUnsupported := false

/-- `rtc_month_days` of the calendar. -/
def calendarMonthDays (month year : Nat) : Nat := (monthLen (12 * year + month)).toNat

theorem sameTime_ofSecs (ht : t.Valid last) (hsecs : 0 ≤ t.secs) : SameTime t (ofSecs t.secs) := by
  have hclock := ht.clock_bounds
  have hhour := ht.hour
  have hmin := ht.min
  have hsec := ht.sec
  have hmon := ht.mon
  have hdiv : t.secs / 86400 = t.day - 719529 := by
    unfold secs
    omega
  have hepoch : IsDate (12 * 1970) 1 ∧ dayNumber (12 * 1970) 1 = 719529 := by decide
  obtain ⟨hdate, hday⟩ := dateAfter_spec hepoch.1 (t.secs / 86400).toNat
  have hsame := (dayNumber_inj hdate ht.date).mp (by
    rw [hday, hepoch.2]
    change 719529 + _ = t.day
    omega)
  have hmonth : t.month % 12 = t.tmMon ∧ t.month / 12 - 1900 = t.tmYear := by
    unfold month
    omega
  unfold secs clock at *
  refine ⟨⟨?_, ?_, ?_⟩, ?_, ?_, ?_⟩
  · simp only [ofSecs]
    omega
  · simp only [ofSecs]
    omega
  · simp only [ofSecs]
    omega
  · simp only [ofSecs, hsame.1]
    exact hmonth.2
  · simp only [ofSecs, hsame.1]
    exact hmonth.1
  · simp only [ofSecs, hsame.2]

theorem calendarLaws : CalendarLaws calendarEnv calendarMonthDays 2147481747 := by
  have hto : ∀ t : RtcTime, t.Valid 2147481747 → (calendarEnv.tmToTime64 t).toInt = t.secs := by
    intro t ht
    have hbounds := ht.secs_bounds (Int.le_refl _)
    change (Int64.ofInt t.secs).toInt = t.secs
    rw [Int64.toInt_ofInt]
    exact bmod_of_fits (by omega) (by omega)
  refine ⟨Int.le_refl _, fun t => decide_eq_true_iff, hto, fun t ht => ?_, fun m y _ => ?_⟩
  · have hbounds := ht.secs_bounds (Int.le_refl _)
    change SameTime t (ofSecs (calendarEnv.tmToTime64 t).toInt)
    rw [hto t ht]
    exact sameTime_ofSecs ht hbounds.1
  · have hlen := monthLen_bounds (12 * y + m)
    exact Int.toNat_of_nonneg (by omega)

/-- Noon on the last day of January, and an alarm for 8 on the 29th of a month. -/
def lastOfJanuary (year : Int) : RtcTime := ⟨0, 0, 12, 31, 0, year, -1, -1, -1⟩
def onTwentyNinth : RtcWkalrm RtcTime := ⟨true, ⟨0, 0, 8, 29, -1, -1, -1, -1, -1⟩⟩

theorem lacks_onTwentyNinth : Lacks onTwentyNinth.time .month :=
  ⟨by decide, rfl, by decide, by decide, by decide⟩

/-- In 2024 the next 29th is in February. -/
theorem readAlarm_earliest_inLeapYear :
    ReadsNext calendarEnv calendarMonthDays 2147481747 .month (lastOfJanuary 124)
      [⟨.ok onTwentyNinth, .ok (lastOfJanuary 124)⟩] onTwentyNinth (lastOfJanuary 124) :=
  (readAlarm_earliest_iff calendarLaws onTwentyNinth rfl lacks_onTwentyNinth (by decide)
    (by decide)).mpr
    ⟨⟨⟨0, 0, 8, 29, 1, 124, -1, -1, -1⟩,
      ⟨by decide, ⟨⟨rfl, rfl, rfl⟩, fun _ => rfl, fun _ h => absurd rfl h, nofun⟩,
        by decide⟩⟩,
      fun h => absurd h.2.2.2.2 (by decide)⟩

/-- In 2000 it is too, but the alarm is completed to a 29th of March. -/
theorem not_readAlarm_earliest_inTwoThousand :
    calendarEnv.readRounds (lastOfJanuary 100) [⟨.ok onTwentyNinth, .ok (lastOfJanuary 100)⟩] =
        some (.incomplete onTwentyNinth (lastOfJanuary 100)) ∧
      (lastOfJanuary 100).Valid 2147481747 ∧
      (fillMissing onTwentyNinth.time (lastOfJanuary 100)).1.Valid 2147481747 ∧
      calendarEnv.readAlarm calendarMonthDays 2 (.ok (lastOfJanuary 100))
          [⟨.ok onTwentyNinth, .ok (lastOfJanuary 100)⟩] =
        some (0, some ⟨true, ⟨0, 0, 8, 29, 2, 100, -1, -1, -1⟩⟩) ∧
      ¬ReadsNext calendarEnv calendarMonthDays 2147481747 .month (lastOfJanuary 100)
        [⟨.ok onTwentyNinth, .ok (lastOfJanuary 100)⟩] onTwentyNinth (lastOfJanuary 100) := by
  refine ⟨rfl, by decide, by decide, rfl, fun hnext => ?_⟩
  have hreads : calendarEnv.readRounds (lastOfJanuary 100)
      [⟨.ok onTwentyNinth, .ok (lastOfJanuary 100)⟩] =
        some (.incomplete onTwentyNinth (lastOfJanuary 100)) := rfl
  have hiff := readsNext_iff_of_past calendarLaws hreads lacks_onTwentyNinth (by decide)
    (by decide) (by decide)
  exact (hiff.mp hnext).2 ⟨rfl, by decide, by decide, by decide⟩

end RealtekIpcam.Rtc
