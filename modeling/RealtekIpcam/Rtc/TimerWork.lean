import RealtekIpcam.Rtc.WorkRounds

/-!
# What a run of the work expires

The rounds of a run follow from what is read alone: the clock, and the answers of the driver.
`Settles` says so in integers, where no expiry is out of range.  A round leaves every timer at its
first expiry after the time that it has read, whatever happened in the rounds before; and it is the
last when nothing is left, or when the first of these expiries is later than the next read of the
time and the driver takes the alarm.

`rtc_timer_do_work` does this as long as the expiries that it leaves are in the range of `ktime_t`,
and only then.
-/

namespace RealtekIpcam.Rtc

variable {Tm : Type} {env : RtcEnv Tm} {s₀ s s' e : RtcDevice Tm} {t u : TimerId} {now k T : Ktime}
  {n : Nat} {fs gs : List (TimerId × Ktime)} {r : Reads} {x : Int}

/-! ## The rounds without a queue -/

/-- `rtc_ktime_to_tm` rounds up to a second, so that `__rtc_set_alarm`, which compares seconds,
finds an expiry passed when it is.  A time beyond the range of `ktime_t` is `KTIME_MAX`, where only
one half of this is left. -/
structure RtcEnv.RoundsUp (env : RtcEnv Tm) : Prop where
  le_of_passed : ∀ tm k, env.validTm tm = true → env.validTm (env.ktimeToTm k) = true →
    env.tmToTime64 (env.ktimeToTm k) ≤ env.tmToTime64 tm → k ≤ env.tmToKtime tm
  passed_of_le : ∀ tm k, env.validTm tm = true → env.validTm (env.ktimeToTm k) = true →
    env.tmToKtime tm < ktimeMax → k ≤ env.tmToKtime tm →
    env.tmToTime64 (env.ktimeToTm k) ≤ env.tmToTime64 tm

/-- The time that a read gives. -/
def RtcEnv.timeAt (env : RtcEnv Tm) (r : Reads) : Ktime := env.tmToKtime (env.coreTime r.clock)

theorem RtcEnv.now_eq (env : RtcEnv Tm) (s : RtcDevice Tm) : env.now s = env.timeAt s.reads := rfl

/-- `__rtc_set_alarm` finds the expiry passed. -/
def RtcEnv.Passed (env : RtcEnv Tm) (r : Reads) (x : Int) : Prop :=
  env.tmToTime64 (env.ktimeToTm (Int64.ofInt x)) ≤ env.tmToTime64 (env.coreTime r.clock)

/-- The first of the expiries that are left after `now`. -/
structure LeastLeft (s : RtcDevice Tm) (now : Ktime) (x : Int) : Prop where
  mem : ∃ t ∈ s.timerqueue, leftAfter s now t = some x
  least : ∀ t ∈ s.timerqueue, ∀ y, leftAfter s now t = some y → x ≤ y

/-- **The rounds of a run**, by what is read: the last round has read the time `k`, and the last
read of the time is `T`. -/
inductive Settles (env : RtcEnv Tm) (s : RtcDevice Tm) : Reads → Ktime → Ktime → Prop
  | drained {r : Reads}
      (hnone : ∀ t ∈ s.timerqueue, leftAfter s (env.timeAt r.next) t = none) :
      Settles env s r (env.timeAt r.next) (env.timeAt r.next)
  | armed {r : Reads} {x : Int} (hx : LeastLeft s (env.timeAt r.next) x)
      (hlater : ¬ env.Passed r.next.next x) (hset : r.errs.headD 0 = 0) :
      Settles env s r (env.timeAt r.next) (env.timeAt r.next.next)
  | late {r : Reads} {x : Int} {k T : Ktime} (hx : LeastLeft s (env.timeAt r.next) x)
      (hlate : env.Passed r.next.next x) (h : Settles env s r.next.next k T) : Settles env s r k T
  | refused {r : Reads} {x : Int} {k T : Ktime} (hx : LeastLeft s (env.timeAt r.next) x)
      (hlater : ¬ env.Passed r.next.next x) (herr : r.errs.headD 0 = - ETIME)
      (h : Settles env s r.next.next.answered k T) : Settles env s r k T

/-- What the last round leaves is in range: the expiries, and, if there are any, the time read
behind them. -/
def InRange (env : RtcEnv Tm) (s : RtcDevice Tm) : Prop :=
  ∃ k T, Settles env s s.reads k T ∧
    ∀ t ∈ s.timerqueue, ∀ x, leftAfter s k t = some x → x ≤ ktimeMax.toInt ∧ T < ktimeMax

/-- **What a run of the work is for**, with the rounds of the run and the device behind it. -/
structure Expired (env : RtcEnv Tm) (n : Nat) (s s' : RtcDevice Tm) : Prop where
  fired : s'.fired = s.fired ++ env.firings n s
  early : ∀ round ∈ env.rounds n s, ∀ f ∈ round.2, f.2 ≤ round.1
  order : (env.firings n s).Pairwise fun f g => f.2 ≤ g.2
  oneShot : ∀ t ∈ s.timerqueue, (s.timers t).period = 0 → s.expires t ≤ env.now s' →
    expiriesOf t (env.firings n s) = [(s.expires t).toInt] ∧ (s'.timers t).enabled = false ∧
      t ∉ s'.timerqueue
  periodic : ∀ t ∈ s.timerqueue, (s.timers t).period ≠ 0 →
    expiriesOf t (env.firings n s) =
        Expiry.expiries (s.expires t).toInt (s.timers t).period.toInt
          (Expiry.count (s.expires t).toInt (s.timers t).period.toInt (env.now s').toInt) ∧
      t ∈ s'.timerqueue ∧ env.now s' < s'.expires t
  idle : ∀ t, t ∉ s.timerqueue ∨ (s.timers t).period = 0 ∧ env.now s' < s.expires t →
    expiriesOf t (env.firings n s) = []

theorem Expired.pairwise (h : Expired env n s s') (hgs : s'.fired = s.fired ++ gs) :
    gs.Pairwise fun f g => f.2 ≤ g.2 := by
  rw [List.append_cancel_left (hgs.symm.trans h.fired)]
  exact h.order

theorem Fired.course (h : Fired s₀ e fs)
    (hperiod : ∀ t ∈ s₀.timerqueue, 0 ≤ (s₀.timers t).period.toInt) (hfs : ∀ f ∈ fs, f.2 ≤ now)
    (hafter : ∀ t ∈ e.timerqueue, now < e.expires t) (ht : t ∈ s₀.timerqueue) :
    Course (s₀.expires t).toInt (s₀.timers t).period.toInt (expiriesOf t fs) (t ∈ e.timerqueue)
      (e.expires t).toInt
      (Expiry.count (s₀.expires t).toInt (s₀.timers t).period.toInt now.toInt) := by
  obtain ⟨n, hc⟩ := h.inside t ht
  have hbefore : ∀ x ∈ expiriesOf t fs, x ≤ now.toInt := by
    intro x hx
    obtain ⟨f, hf, rfl⟩ := List.mem_map.mp hx
    exact Int64.le_iff_toInt_le.mp (hfs f (List.mem_filter.mp hf).1)
  suffices heq : n = Expiry.count (s₀.expires t).toInt (s₀.timers t).period.toInt now.toInt from
    heq ▸ hc
  have hlt : t ∈ e.timerqueue → now.toInt < (e.expires t).toInt := fun hmem =>
    Int64.lt_iff_toInt_lt.mp (hafter t hmem)
  rw [hc.fired] at hbefore
  rw [hc.next] at hlt
  by_cases hp : (s₀.timers t).period.toInt = 0
  · have hone := hc.once hp
    rw [hp] at hlt hbefore ⊢
    rcases Nat.le_one_iff_eq_zero_or_eq_one.mp hone with rfl | rfl
    · have hmem := hlt (hc.queued.mpr fun _ => rfl)
      exact (Expiry.count_of_lt (by simpa using hmem)).symm
    · have hle := hbefore (s₀.expires t).toInt (by simp [Expiry.expiries])
      exact (Expiry.count_oneShot hle).symm
  · have hpos := lt_of_le_of_ne (hperiod t ht) (Ne.symm hp)
    refine Expiry.count_unique hpos (fun i hi => hbefore _ ?_)
      (hlt (hc.queued.mpr fun h0 => absurd h0 hp))
    exact List.mem_map.mpr ⟨i, List.mem_range.mpr hi, rfl⟩

theorem Fired.leftAfter_eq (h : Fired s₀ e fs)
    (hperiod : ∀ t ∈ s₀.timerqueue, 0 ≤ (s₀.timers t).period.toInt) (hfs : ∀ f ∈ fs, f.2 ≤ now)
    (hafter : ∀ t ∈ e.timerqueue, now < e.expires t) (ht : t ∈ s₀.timerqueue) :
    leftAfter s₀ now t = some x ↔ t ∈ e.timerqueue ∧ x = (e.expires t).toInt := by
  have hc := h.course hperiod hfs hafter ht
  have hnone : (s₀.timers t).period.toInt = 0 ∧ (s₀.expires t).toInt ≤ now.toInt ↔
      t ∉ e.timerqueue := by
    rw [hc.queued]
    constructor
    · rintro ⟨hp, hle⟩ hq
      have := hq hp
      rw [hp, Expiry.count_oneShot hle] at this
      cases this
    · intro hq
      obtain ⟨hp, hne⟩ := Classical.not_imp.mp hq
      refine ⟨hp, Int.not_lt.mp fun hlt => hne (Expiry.count_of_lt hlt)⟩
  unfold leftAfter
  rw [Expiry.next, hc.next]
  by_cases hq : t ∈ e.timerqueue
  · rw [if_neg (fun hle => hnone.mp hle hq), Option.some_inj]
    simp [hq, eq_comm]
  · rw [if_pos (hnone.mpr hq)]
    simp [hq]

theorem Fired.earliest (h : Fired s₀ e fs)
    (hperiod : ∀ t ∈ s₀.timerqueue, 0 ≤ (s₀.timers t).period.toInt) (hfs : ∀ f ∈ fs, f.2 ≤ now)
    (hafter : ∀ t ∈ e.timerqueue, now < e.expires t) {rest : List TimerId}
    (hcons : e.timerqueue = t :: rest) : LeastLeft s₀ now x ↔ x = (e.expires t).toInt := by
  have hmem : ∀ {u}, u ∈ e.timerqueue → u ∈ s₀.timerqueue := fun hu => by
    by_contra hout
    exact (h.outside _ hout).1 hu
  have ht : t ∈ e.timerqueue := hcons ▸ List.mem_cons_self
  have hleft : ∀ {u y}, u ∈ s₀.timerqueue → (leftAfter s₀ now u = some y ↔ _) := fun hu =>
    h.leftAfter_eq hperiod hfs hafter hu
  have hhead : ∀ {u}, u ∈ e.timerqueue → (e.expires t).toInt ≤ (e.expires u).toInt := fun hu =>
    Int64.le_iff_toInt_le.mp (h.queueOk.head_le hcons hu)
  constructor
  · rintro ⟨⟨u, hu, hx⟩, hleast⟩
    obtain ⟨huq, rfl⟩ := (hleft hu).mp hx
    exact Int.le_antisymm (hleast t (hmem ht) _ ((hleft (hmem ht)).mpr ⟨ht, rfl⟩)) (hhead huq)
  · rintro rfl
    refine ⟨⟨t, hmem ht, (hleft (hmem ht)).mpr ⟨ht, rfl⟩⟩, fun u hu y hy => ?_⟩
    obtain ⟨huq, rfl⟩ := (hleft hu).mp hy
    exact hhead huq

/-! ## The end of a round -/

/-- The driver takes the alarm, or finds it too late. -/
def AnswersOk (errs : List Int) : Prop := ∀ err ∈ errs, err = 0 ∨ err = - ETIME

theorem AnswersOk.headD {errs : List Int} (h : AnswersOk errs) :
    errs.headD 0 = 0 ∨ errs.headD 0 = - ETIME := by
  cases errs with
  | nil => exact .inl rfl
  | cons err errs => exact h err List.mem_cons_self

/-- What setting the alarm does not touch. -/
structure SameTimers (s s' : RtcDevice Tm) : Prop where
  timers : s'.timers = s.timers
  timerqueue : s'.timerqueue = s.timerqueue
  fired : s'.fired = s.fired

theorem Fired.of_same (h : Fired s₀ s fs) (hsame : SameTimers s s') : Fired s₀ s' fs := by
  have hexpires : s'.expires = s.expires := by
    funext t
    rw [RtcDevice.expires, hsame.timers, RtcDevice.expires]
  refine ⟨h.queueOk.of_same hsame.timers hsame.timerqueue, ?_, hsame.fired.trans h.fired, h.order,
    ?_, ?_, ?_⟩
  · rw [hsame.timers]
    exact h.period
  · rw [hsame.timerqueue, hexpires]
    exact h.before
  · rw [hsame.timerqueue]
    exact h.outside
  · rw [hsame.timerqueue, hexpires]
    exact h.inside

/-- How a round ends. -/
inductive RoundEnd (env : RtcEnv Tm) (x : Int) (r : Reads) : Bool → Reads → Prop
  | late (h : env.Passed r.next x) : RoundEnd env x r true r.next
  | refused (h : ¬ env.Passed r.next x) (herr : r.errs.headD 0 = - ETIME) :
      RoundEnd env x r true r.next.answered
  | armed (h : ¬ env.Passed r.next x) (hset : r.errs.headD 0 = 0) :
      RoundEnd env x r false r.next.answered

section RoundEnd

variable {again : Bool} {r' : Reads} (h : RoundEnd env x r again r')
include h

theorem RoundEnd.of_passed (hlate : env.Passed r.next x) : again = true ∧ r' = r.next := by
  cases h with
  | late => exact ⟨rfl, rfl⟩
  | refused hlater => exact absurd hlate hlater
  | armed hlater => exact absurd hlate hlater

theorem RoundEnd.of_refused (hlater : ¬ env.Passed r.next x) (herr : r.errs.headD 0 = - ETIME) :
    again = true ∧ r' = r.next.answered := by
  cases h with
  | late hlate => exact absurd hlate hlater
  | refused => exact ⟨rfl, rfl⟩
  | armed _ hset =>
    rw [hset] at herr
    cases herr

theorem RoundEnd.of_armed (hlater : ¬ env.Passed r.next x) (hset : r.errs.headD 0 = 0) :
    again = false ∧ r' = r.next.answered := by
  cases h with
  | late hlate => exact absurd hlate hlater
  | refused _ herr =>
    rw [hset] at herr
    cases herr
  | armed => exact ⟨rfl, rfl⟩

end RoundEnd

theorem rearm_cons (henv : env.Lawful) {rest : List TimerId} (hcons : e.timerqueue = t :: rest)
    (hvalid : env.validTm (env.ktimeToTm (e.expires t)) = true) (herrs : AnswersOk e.setAlarmErrs) :
    ∃ again r, env.rearm e = (again, r) ∧ SameTimers e r ∧
      RoundEnd env (e.expires t).toInt e.reads again r.reads := by
  have hkey : Int64.ofInt (e.expires t).toInt = e.expires t := Int64.ofInt_toInt _
  have hset : ∃ err alarm r, env.setAlarm e ⟨true, env.ktimeToTm (e.expires t)⟩ =
      ((err, alarm), r) ∧ SameTimers e r ∧ (err = 0 ∨ err = - ETIME) ∧
        RoundEnd env (e.expires t).toInt e.reads (decide (err ≠ 0)) r.reads := by
    simp only [RtcEnv.setAlarm, hvalid, if_true, readTime_eq henv, ne_eq, not_true_eq_false,
      if_false]
    split
    next hle =>
      refine ⟨_, _, _, rfl, ⟨rfl, rfl, rfl⟩, .inr rfl, RoundEnd.late ?_⟩
      unfold RtcEnv.Passed
      rwa [hkey]
    next hlater =>
      have hnot : ¬ env.Passed e.reads.next (e.expires t).toInt := by
        unfold RtcEnv.Passed
        rwa [hkey]
      rcases herrs.headD with h0 | herr
      · simp only [RtcDevice.setAlarm, RtcDevice.tick, h0, if_true]
        exact ⟨_, _, _, rfl, ⟨rfl, rfl, rfl⟩, .inl rfl, RoundEnd.armed hnot h0⟩
      · have hne : ¬ (- ETIME : Int) = 0 := by decide
        simp only [RtcDevice.setAlarm, RtcDevice.tick, herr, if_neg hne]
        exact ⟨_, _, _, rfl, ⟨rfl, rfl, rfl⟩, .inr rfl, RoundEnd.refused hnot herr⟩
  obtain ⟨err, alarm, r, heq, hsame, herr, hend⟩ := hset
  refine ⟨_, r, ?_, hsame, hend⟩
  have hreprogram : env.reprogram 3 e ⟨true, env.ktimeToTm (e.expires t)⟩ = (err, r) := by
    rw [RtcEnv.reprogram, heq]
    exact if_pos herr
  rw [RtcEnv.rearm, hcons]
  dsimp only
  rw [hreprogram]
  rcases herr with rfl | rfl
  · rfl
  · rfl

/-! ## A round -/

/-- A round that has read the time `env.timeAt s.reads.next`, and has fired `gs`. -/
structure RoundSpec (env : RtcEnv Tm) (s₀ s : RtcDevice Tm) (fs gs : List (TimerId × Ktime))
    (again : Bool) (s' : RtcDevice Tm) : Prop where
  fired : Fired s₀ s' (fs ++ gs)
  early : ∀ g ∈ gs, g.2 ≤ env.timeAt s.reads.next
  after : ∀ t ∈ s'.timerqueue, env.timeAt s.reads.next < s'.expires t
  ends :
    (s'.timerqueue = [] ∧ (∀ t ∈ s₀.timerqueue, leftAfter s₀ (env.timeAt s.reads.next) t = none) ∧
      again = false ∧ s'.reads = s.reads.next) ∨
    ∃ t ∈ s'.timerqueue, (∀ u ∈ s'.timerqueue, s'.expires t ≤ s'.expires u) ∧
      LeastLeft s₀ (env.timeAt s.reads.next) (s'.expires t).toInt ∧
      RoundEnd env (s'.expires t).toInt s.reads.next again s'.reads

theorem timeAt_next_le (henv : env.Lawful) (r : Reads) : env.timeAt r ≤ env.timeAt r.next :=
  henv.mono _ _ (Nat.le_add_right _ _)

theorem readTime_tick (henv : env.Lawful) (s : RtcDevice Tm) :
    env.tmToKtime (env.readTime s).1.2 = env.timeAt s.reads.next := by
  rw [readTime_eq henv]
  rfl

theorem workRound_mono {m : Nat} {p : RtcDevice Tm × Bool × RtcDevice Tm}
    (h : env.workRound n s = some p) (hle : n ≤ m) : env.workRound m s = some p := by
  unfold RtcEnv.workRound at h ⊢
  dsimp only at h ⊢
  obtain ⟨e, he, rfl⟩ := Option.map_eq_some_iff.mp h
  rw [expireTimers_mono he hle]
  rfl

/-- **One round** of the work. -/
theorem Fired.workRound (henv : env.Lawful) (h : Fired s₀ s fs)
    (hperiod : ∀ t ∈ s₀.timerqueue, 0 ≤ (s₀.timers t).period.toInt)
    (hfs : ∀ f ∈ fs, f.2 ≤ env.timeAt s.reads) (herrs : AnswersOk s.setAlarmErrs)
    (hfits : Fits s₀ (env.timeAt s.reads.next)) :
    ∃ N gs e again s', (∀ n ≥ N, env.workRound n s = some (e, again, s')) ∧
      e.fired = s.fired ++ gs ∧ RoundSpec env s₀ s fs gs again s' := by
  have htick : Fired s₀ s.tick fs := h.of_same ⟨rfl, rfl, rfl⟩
  obtain ⟨gs, e, hrun, hfired, hearly, hafter, hreads⟩ :=
    htick.loop henv hperiod hfits _ (Nat.lt_succ_self _)
  have hread : e.reads = s.reads.next := hreads
  have hall : ∀ f ∈ fs ++ gs, f.2 ≤ env.timeAt s.reads.next := by
    intro f hf
    rcases List.mem_append.mp hf with hf | hf
    · exact Int64.le_trans (hfs f hf) (timeAt_next_le henv s.reads)
    · exact hearly f hf
  have hround : ∀ n ≥ dueCount (env.timeAt s.reads.next) s.tick + 1,
      env.workRound n s = some (e, env.rearm e) := by
    intro n hn
    have := hrun n hn
    unfold RtcEnv.workRound
    rw [readTime_eq henv]
    dsimp only
    rw [show env.tmToKtime (env.coreTime s.tick.clock) = env.timeAt s.reads.next from rfl, this]
    rfl
  have hgs : e.fired = s.fired ++ gs := by
    rw [hfired.fired, h.fired, List.append_assoc]
  cases hq : e.timerqueue with
  | nil =>
    have hrearm : env.rearm e = (false, e.alarmIrqEnable false) := by rw [RtcEnv.rearm, hq]
    refine ⟨_, gs, e, false, e.alarmIrqEnable false, hrearm ▸ hround, hgs,
      hfired.of_same ⟨rfl, rfl, rfl⟩, hearly,
      hafter, .inl ⟨hq, fun t ht => ?_, rfl, hread⟩⟩
    refine Option.eq_none_iff_forall_ne_some.mpr fun x hx => ?_
    have hmem := ((hfired.leftAfter_eq hperiod hall hafter ht).mp hx).1
    rw [hq] at hmem
    cases hmem
  | cons t rest =>
    have ht : t ∈ e.timerqueue := hq ▸ List.mem_cons_self
    have hvalid := henv.validTm_of_le _ _ (henv.valid _) (Int64.le_of_lt (hafter t ht))
    have herrs' : AnswersOk e.setAlarmErrs := by
      have : e.setAlarmErrs = s.setAlarmErrs := congrArg Reads.errs hread
      rwa [this]
    obtain ⟨again, s', hrearm, hsame, hend⟩ := rearm_cons henv hq hvalid herrs'
    have hexpires : s'.expires = e.expires := by
      funext u
      rw [RtcDevice.expires, hsame.timers, RtcDevice.expires]
    rw [hread] at hend
    refine ⟨_, gs, e, again, s', hrearm ▸ hround, hgs, hfired.of_same hsame, hearly, ?_,
      .inr ⟨t, hsame.timerqueue ▸ ht, ?_, ?_, ?_⟩⟩
    · rw [hsame.timerqueue, hexpires]
      exact hafter
    · rw [hsame.timerqueue, hexpires]
      exact fun u hu => hfired.queueOk.head_le hq hu
    · rw [hexpires]
      exact (hfired.earliest hperiod hall hafter hq).mpr rfl
    · rwa [hexpires]

/-! ## A run -/

theorem rounds_succ (henv : env.Lawful) {again : Bool}
    (h : env.workRound (n + 1) s = some (e, again, s')) (hgs : e.fired = s.fired ++ gs) :
    env.rounds (n + 1) s =
      (env.timeAt s.reads.next, gs) :: if again then env.rounds n s' else [] := by
  rw [RtcEnv.rounds, h]
  dsimp only
  rw [readTime_tick henv, hgs, List.drop_left]

theorem firings_succ (henv : env.Lawful) {again : Bool}
    (h : env.workRound (n + 1) s = some (e, again, s')) (hgs : e.fired = s.fired ++ gs) :
    env.firings (n + 1) s = gs ++ if again then env.firings n s' else [] := by
  unfold RtcEnv.firings
  rw [rounds_succ henv h hgs, List.flatMap_cons]
  split
  · rfl
  · rfl

/-- What is left of a run from `s`, behind which the last read of the time was `T`. -/
structure Ran (env : RtcEnv Tm) (s₀ s : RtcDevice Tm) (fs : List (TimerId × Ktime)) (T : Ktime)
    (n : Nat) (s' : RtcDevice Tm) : Prop where
  run : env.rtcTimerDoWork n s = some s'
  fired : Fired s₀ s' (fs ++ env.firings n s)
  early : ∀ round ∈ env.rounds n s, ∀ f ∈ round.2, f.2 ≤ round.1
  now : env.now s' = T
  before : ∀ f ∈ fs ++ env.firings n s, f.2 ≤ T
  after : ∀ t ∈ s'.timerqueue, T < s'.expires t

theorem RoundSpec.ran_last (henv : env.Lawful) (h : RoundSpec env s₀ s fs gs false s')
    (hfs : ∀ f ∈ fs, f.2 ≤ env.timeAt s.reads)
    (hround : env.workRound (n + 1) s = some (e, false, s')) (hgs : e.fired = s.fired ++ gs)
    (hle : env.timeAt s.reads.next ≤ env.now s')
    (hafter : ∀ t ∈ s'.timerqueue, env.now s' < s'.expires t) :
    Ran env s₀ s fs (env.now s') (n + 1) s' := by
  have hrounds := rounds_succ henv hround hgs
  have hfirings := firings_succ henv hround hgs
  rw [if_neg Bool.false_ne_true] at hrounds hfirings
  rw [List.append_nil] at hfirings
  refine ⟨?_, hfirings ▸ h.fired, fun round hmem => ?_, rfl, fun f hf => ?_, hafter⟩
  · rw [RtcEnv.rtcTimerDoWork_succ, hround]
    rfl
  · rw [hrounds, List.mem_singleton] at hmem
    rw [hmem]
    exact h.early
  · rw [hfirings] at hf
    rcases List.mem_append.mp hf with hf | hf
    · exact Int64.le_trans (Int64.le_trans (hfs f hf) (timeAt_next_le henv _)) hle
    · exact Int64.le_trans (h.early f hf) hle

theorem RoundSpec.ran_again (henv : env.Lawful) (h : RoundSpec env s₀ s fs gs true s')
    (hround : env.workRound (n + 1) s = some (e, true, s')) (hgs : e.fired = s.fired ++ gs)
    {s'' : RtcDevice Tm} (hran : Ran env s₀ s' (fs ++ gs) T n s'') :
    Ran env s₀ s fs T (n + 1) s'' := by
  have hrounds := rounds_succ henv hround hgs
  have hfirings := firings_succ henv hround hgs
  rw [if_pos rfl] at hrounds hfirings
  have hall : fs ++ env.firings (n + 1) s = fs ++ gs ++ env.firings n s' := by
    rw [hfirings, List.append_assoc]
  refine ⟨?_, hall ▸ hran.fired, fun round hmem => ?_, hran.now, hall ▸ hran.before, hran.after⟩
  · rw [RtcEnv.rtcTimerDoWork_succ, hround]
    exact hran.run
  · rw [hrounds] at hmem
    rcases List.mem_cons.mp hmem with rfl | hmem
    · exact h.early
    · exact hran.early round hmem

theorem passed_of_le (henv : env.Lawful) (hround : env.RoundsUp) {k : Ktime} {r : Reads}
    (hlater : ¬ env.Passed r k.toInt) (hvalid : env.validTm (env.ktimeToTm k) = true)
    (hmax : env.timeAt r < ktimeMax) : env.timeAt r < k := by
  refine Int64.not_le.mp fun hle => hlater ?_
  unfold RtcEnv.Passed
  rw [show Int64.ofInt k.toInt = k from Int64.ofInt_toInt k]
  exact hround.passed_of_le _ _ (henv.valid _) hvalid hmax hle

theorem Settles.le (henv : env.Lawful) (h : Settles env s r k T) : env.timeAt r.next ≤ k := by
  induction h with
  | drained => exact Int64.le_refl _
  | armed => exact Int64.le_refl _
  | @late r x k T _ _ _ ih =>
    exact Int64.le_trans (Int64.le_trans (timeAt_next_le henv _) (timeAt_next_le henv _)) ih
  | @refused r x k T _ _ _ _ ih =>
    exact Int64.le_trans (Int64.le_trans (timeAt_next_le henv _) (timeAt_next_le henv _)) ih

theorem Fits.mono (hperiod : ∀ t ∈ s.timerqueue, 0 ≤ (s.timers t).period.toInt)
    (h : Fits s k) (hle : now ≤ k) : Fits s now := by
  intro t ht x hx
  by_cases hp : (s.timers t).period.toInt = 0
  · unfold leftAfter at hx
    rw [hp, Expiry.next] at hx
    split at hx
    · cases hx
    · obtain rfl := Option.some_inj.mp hx
      rw [Int.mul_zero, Int.add_zero]
      exact Int.lt_add_one_iff.mp (s.expires t).toInt_lt
  · obtain ⟨y, hy, hxy⟩ := Expiry.next_mono (hperiod t ht) (Int64.le_iff_toInt_le.mp hle) hx hp
    exact Int.le_trans hxy (h t ht y hy)

theorem Settles.fits (henv : env.Lawful)
    (hperiod : ∀ t ∈ s₀.timerqueue, 0 ≤ (s₀.timers t).period.toInt) (h : Settles env s₀ r k T)
    (hfits : ∀ t ∈ s₀.timerqueue, ∀ x, leftAfter s₀ k t = some x →
      x ≤ ktimeMax.toInt ∧ T < ktimeMax) : Fits s₀ (env.timeAt r.next) :=
  Fits.mono hperiod (fun t ht x hx => (hfits t ht x hx).1) (h.le henv)

theorem RoundSpec.ran_eventually (henv : env.Lawful) {N : Nat}
    (h : RoundSpec env s₀ s fs gs true s')
    (hround : ∀ n ≥ N, env.workRound n s = some (e, true, s')) (hgs : e.fired = s.fired ++ gs)
    (hran : ∃ N, ∀ n ≥ N, ∃ s'', Ran env s₀ s' (fs ++ gs) T n s'') :
    ∃ N, ∀ n ≥ N, ∃ s'', Ran env s₀ s fs T n s'' := by
  obtain ⟨M, hM⟩ := hran
  refine ⟨N + M + 1, fun n hn => ?_⟩
  obtain ⟨m, rfl⟩ : ∃ m, n = m + 1 := ⟨n - 1, by omega⟩
  obtain ⟨s'', hran⟩ := hM m (by omega)
  exact ⟨s'', h.ran_again henv (hround (m + 1) (by omega)) hgs hran⟩

theorem LeastLeft.unique {y : Int} (hx : LeastLeft s now x) (hy : LeastLeft s now y) : x = y := by
  obtain ⟨t, ht, hleft⟩ := hx.mem
  obtain ⟨u, hu, hleft'⟩ := hy.mem
  exact Int.le_antisymm (hx.least u hu y hleft') (hy.least t ht x hleft)

theorem RoundSpec.ends_earliest {again : Bool} (h : RoundSpec env s₀ s fs gs again s')
    (hx : LeastLeft s₀ (env.timeAt s.reads.next) x) :
    ∃ t ∈ s'.timerqueue, x = (s'.expires t).toInt ∧
      (∀ u ∈ s'.timerqueue, s'.expires t ≤ s'.expires u) ∧
      RoundEnd env x s.reads.next again s'.reads := by
  rcases h.ends with ⟨-, hnone, -⟩ | ⟨t, ht, hfirst, hearliest, hend⟩
  · obtain ⟨t, ht, hleft⟩ := hx.mem
    rw [hnone t ht] at hleft
    cases hleft
  · obtain rfl := hx.unique hearliest
    exact ⟨t, ht, rfl, hfirst, hend⟩

theorem RoundSpec.all_le (henv : env.Lawful) {again : Bool}
    (h : RoundSpec env s₀ s fs gs again s') (hfs : ∀ f ∈ fs, f.2 ≤ env.timeAt s.reads) :
    ∀ f ∈ fs ++ gs, f.2 ≤ env.timeAt s.reads.next := by
  intro f hf
  rcases List.mem_append.mp hf with hf | hf
  · exact Int64.le_trans (hfs f hf) (timeAt_next_le henv _)
  · exact h.early f hf

/-- **A run does what it settles to**, when that is in range.  The induction is on the rounds; each
fires what is due by its time, and passes the timers on at their next expiries. -/
theorem Settles.ran (henv : env.Lawful) (hround : env.RoundsUp)
    (hperiod : ∀ t ∈ s₀.timerqueue, 0 ≤ (s₀.timers t).period.toInt) (h : Settles env s₀ r k T)
    (hfits : ∀ t ∈ s₀.timerqueue, ∀ x, leftAfter s₀ k t = some x →
      x ≤ ktimeMax.toInt ∧ T < ktimeMax) (hr : s.reads = r) (herrs : AnswersOk r.errs)
    (hfired : Fired s₀ s fs) (hfs : ∀ f ∈ fs, f.2 ≤ env.timeAt r) :
    ∃ N, ∀ n ≥ N, ∃ s', Ran env s₀ s fs T n s' := by
  induction h generalizing s fs with
  | drained hnone =>
    subst hr
    have hrange := (Settles.drained hnone).fits henv hperiod hfits
    obtain ⟨N, gs, e, again, s', hrun, hgs, hspec⟩ :=
      hfired.workRound henv hperiod hfs herrs hrange
    rcases hspec.ends with ⟨hnil, -, rfl, hreads⟩ | ⟨_, -, -, hearliest, -⟩
    · have hnow : env.now s' = env.timeAt s.reads.next := by rw [env.now_eq, hreads]
      refine ⟨N + 1, fun n hn => ⟨s', ?_⟩⟩
      obtain ⟨m, rfl⟩ : ∃ m, n = m + 1 := ⟨n - 1, by omega⟩
      rw [← hnow]
      refine hspec.ran_last henv hfs (hrun (m + 1) (by omega)) hgs (hnow ▸ Int64.le_refl _)
        fun t ht => ?_
      rw [hnil] at ht
      cases ht
    · obtain ⟨t, ht, hleft⟩ := hearliest.mem
      rw [hnone t ht] at hleft
      cases hleft
  | @armed r x hx hlater hset =>
    subst hr
    have hrange := (Settles.armed hx hlater hset).fits henv hperiod hfits
    obtain ⟨N, gs, e, again, s', hrun, hgs, hspec⟩ :=
      hfired.workRound henv hperiod hfs herrs hrange
    obtain ⟨t, ht, rfl, hfirst, hend⟩ := hspec.ends_earliest hx
    obtain ⟨rfl, hreads⟩ := hend.of_armed hlater hset
    have hnow : env.now s' = env.timeAt s.reads.next.next := by
      rw [env.now_eq, hreads]
      rfl
    obtain ⟨u, hu, hleft⟩ := hx.mem
    have hvalid := henv.validTm_of_le _ _ (henv.valid _) (Int64.le_of_lt (hspec.after t ht))
    have hlt := passed_of_le henv hround hlater hvalid (hfits u hu _ hleft).2
    refine ⟨N + 1, fun n hn => ⟨s', ?_⟩⟩
    obtain ⟨m, rfl⟩ : ∃ m, n = m + 1 := ⟨n - 1, by omega⟩
    rw [← hnow] at hlt ⊢
    refine hspec.ran_last henv hfs (hrun (m + 1) (by omega)) hgs ?_
      fun u hu => Int64.lt_of_lt_of_le hlt (hfirst u hu)
    rw [hnow]
    exact timeAt_next_le henv _
  | @late r x k T hx hlate h ih =>
    subst hr
    have hrange := (Settles.late hx hlate h).fits henv hperiod hfits
    obtain ⟨N, gs, e, again, s', hrun, hgs, hspec⟩ :=
      hfired.workRound henv hperiod hfs herrs hrange
    obtain ⟨t, ht, rfl, -, hend⟩ := hspec.ends_earliest hx
    obtain ⟨rfl, hreads⟩ := hend.of_passed hlate
    refine hspec.ran_eventually henv hrun hgs (ih hfits hreads herrs hspec.fired fun f hf => ?_)
    exact Int64.le_trans (hspec.all_le henv hfs f hf) (timeAt_next_le henv _)
  | @refused r x k T hx hlater herr h ih =>
    subst hr
    have hrange := (Settles.refused hx hlater herr h).fits henv hperiod hfits
    obtain ⟨N, gs, e, again, s', hrun, hgs, hspec⟩ :=
      hfired.workRound henv hperiod hfs herrs hrange
    obtain ⟨t, ht, rfl, -, hend⟩ := hspec.ends_earliest hx
    obtain ⟨rfl, hreads⟩ := hend.of_refused hlater herr
    refine hspec.ran_eventually henv hrun hgs (ih hfits hreads ?_ hspec.fired fun f hf => ?_)
    · exact fun err herr => herrs err (List.mem_of_mem_tail herr)
    · exact Int64.le_trans (hspec.all_le henv hfs f hf) (timeAt_next_le henv _)

/-! ## A run that ends -/

theorem RtcDevice.setAlarm_fired (s : RtcDevice Tm) (alarm : RtcWkalrm Tm) :
    (s.setAlarm alarm).2.fired = s.fired := by
  unfold RtcDevice.setAlarm
  dsimp only
  split
  · rfl
  · rfl

theorem setAlarm_fired (henv : env.Lawful) (s : RtcDevice Tm) (alarm : RtcWkalrm Tm) :
    (env.setAlarm s alarm).2.fired = s.fired := by
  unfold RtcEnv.setAlarm
  rw [readTime_eq henv]
  split
  · simp only [ne_eq, not_true_eq_false, if_false]
    split
    · rfl
    · exact s.tick.setAlarm_fired _
  · rfl

theorem reprogram_fired (henv : env.Lawful) (retry : Nat) (s : RtcDevice Tm)
    (alarm : RtcWkalrm Tm) : (env.reprogram retry s alarm).2.fired = s.fired := by
  induction retry generalizing s alarm with
  | zero =>
    rw [RtcEnv.reprogram]
    dsimp only
    split
    · exact setAlarm_fired henv s alarm
    · exact setAlarm_fired henv s alarm
  | succ retry ih =>
    rw [RtcEnv.reprogram]
    dsimp only
    split
    · exact setAlarm_fired henv s alarm
    · exact (ih _ _).trans (setAlarm_fired henv s alarm)

theorem rearm_fired (henv : env.Lawful) (e : RtcDevice Tm) : (env.rearm e).2.fired = e.fired := by
  unfold RtcEnv.rearm
  split
  · rfl
  next t _ _ =>
    have h := reprogram_fired henv 3 e ⟨true, env.ktimeToTm (e.expires t)⟩
    dsimp only
    split
    · exact h
    · split
      · exact h
      · exact h

theorem workRound_eq {p : RtcDevice Tm × Bool × RtcDevice Tm} (henv : env.Lawful)
    (h : env.workRound n s = some p) :
    env.expireTimers (env.timeAt s.reads.next) n s.tick = some p.1 ∧ p.2 = env.rearm p.1 := by
  unfold RtcEnv.workRound at h
  rw [readTime_eq henv] at h
  obtain ⟨e, he, rfl⟩ := Option.map_eq_some_iff.mp h
  exact ⟨he, rfl⟩

theorem rtcTimerDoWork_fired (henv : env.Lawful) (h : env.rtcTimerDoWork n s = some s') :
    ∃ gs, s'.fired = s.fired ++ gs := by
  induction n generalizing s with
  | zero => cases h
  | succ n ih =>
    rw [RtcEnv.rtcTimerDoWork_succ] at h
    obtain ⟨⟨e, again, r⟩, hround, h⟩ := Option.bind_eq_some_iff.mp h
    obtain ⟨hloop, hrearm⟩ := workRound_eq henv hround
    obtain ⟨gs, hgs⟩ := expireTimers_fired henv hloop
    have hr : r.fired = s.fired ++ gs := by
      rw [show r = (env.rearm e).2 from congrArg Prod.snd hrearm, rearm_fired henv]
      exact hgs
    dsimp only at h
    split at h
    · obtain ⟨hs, hall⟩ := ih h
      exact ⟨gs ++ hs, by rw [hall, hr, List.append_assoc]⟩
    · obtain rfl := Option.some_inj.mp h
      exact ⟨gs, hr⟩

/-- **A run that fires in order** stays in range, round by round, and so does what it settles to. -/
theorem settles_of_run (henv : env.Lawful)
    (hperiod : ∀ t ∈ s₀.timerqueue, 0 ≤ (s₀.timers t).period.toInt)
    (hrun : env.rtcTimerDoWork n s = some s') (herrs : AnswersOk s.setAlarmErrs)
    (hfired : Fired s₀ s fs) (hfs : ∀ f ∈ fs, f.2 ≤ env.timeAt s.reads)
    (horder : ∀ gs, s'.fired = s.fired ++ gs → gs.Pairwise fun f g => f.2 ≤ g.2) :
    ∃ k gs, Settles env s₀ s.reads k (env.now s') ∧ Fits s₀ k ∧ Fired s₀ s' gs ∧
      (∀ g ∈ gs, g.2 ≤ k) ∧ ∀ t ∈ s'.timerqueue, k < s'.expires t := by
  induction n generalizing s fs with
  | zero => cases hrun
  | succ n ih =>
    rw [RtcEnv.rtcTimerDoWork_succ] at hrun
    obtain ⟨⟨e, again, r⟩, hround, hrest⟩ := Option.bind_eq_some_iff.mp hrun
    obtain ⟨hloop, hrearm⟩ := workRound_eq henv hround
    have htick : Fired s₀ s.tick fs := hfired.of_same ⟨rfl, rfl, rfl⟩
    by_cases hfits : Fits s₀ (env.timeAt s.reads.next)
    · obtain ⟨N, gs, e', again', r', hrun', hgs, hspec⟩ :=
        hfired.workRound henv hperiod hfs herrs hfits
      obtain ⟨rfl, rfl, rfl⟩ : e' = e ∧ again' = again ∧ r' = r := by
        have hsame := workRound_mono hround (Nat.le_max_left (n + 1) N)
        rw [hrun' _ (Nat.le_max_right (n + 1) N)] at hsame
        simpa using hsame
      have hr : r'.fired = s.fired ++ gs := by
        rw [show r' = (env.rearm e').2 from congrArg Prod.snd hrearm, rearm_fired henv]
        exact hgs
      have horder' : ∀ hs, s'.fired = r'.fired ++ hs → hs.Pairwise fun f g => f.2 ≤ g.2 := by
        intro hs hall
        rw [hr, List.append_assoc] at hall
        exact (List.pairwise_append.mp (horder _ hall)).2.1
      have hall := hspec.all_le henv hfs
      dsimp only at hrest
      rcases hspec.ends with ⟨hnil, hnone, rfl, hreads⟩ | ⟨t, ht, -, hx, hend⟩
      · obtain rfl := Option.some_inj.mp hrest
        have hnow : env.now r' = env.timeAt s.reads.next := by rw [env.now_eq, hreads]
        exact ⟨_, _, hnow ▸ Settles.drained hnone, hfits, hspec.fired, hall, hspec.after⟩
      · by_cases hlate : env.Passed s.reads.next.next (r'.expires t).toInt
        · obtain ⟨rfl, hreads⟩ := hend.of_passed hlate
          have herrs' : AnswersOk r'.setAlarmErrs := by
            rwa [show r'.setAlarmErrs = s.setAlarmErrs from congrArg Reads.errs hreads]
          obtain ⟨k, hs, hsettles, hrest⟩ := ih hrest herrs' hspec.fired
            (fun f hf => hreads ▸ Int64.le_trans (hall f hf) (timeAt_next_le henv _)) horder'
          exact ⟨k, hs, Settles.late hx hlate (hreads ▸ hsettles), hrest⟩
        rcases herrs.headD with hset | herr
        · obtain ⟨rfl, hreads⟩ := hend.of_armed hlate hset
          obtain rfl := Option.some_inj.mp hrest
          have hnow : env.now r' = env.timeAt s.reads.next.next := by
            rw [env.now_eq, hreads]
            rfl
          exact ⟨_, _, hnow ▸ Settles.armed hx hlate hset, hfits, hspec.fired, hall, hspec.after⟩
        · obtain ⟨rfl, hreads⟩ := hend.of_refused hlate herr
          have herrs' : AnswersOk r'.setAlarmErrs := by
            rw [show r'.setAlarmErrs = s.setAlarmErrs.tail from congrArg Reads.errs hreads]
            exact fun err herr => herrs err (List.mem_of_mem_tail herr)
          obtain ⟨k, hs, hsettles, hrest⟩ := ih hrest herrs' hspec.fired
            (fun f hf => hreads ▸ Int64.le_trans (hall f hf) (timeAt_next_le henv _)) horder'
          exact ⟨k, hs, Settles.refused hx hlate herr (hreads ▸ hsettles), hrest⟩
    · obtain ⟨gs, hgs, hnot⟩ := htick.not_fits henv hperiod hfits hloop
      have hr : r.fired = s.fired ++ gs := by
        rw [show r = (env.rearm e).2 from congrArg Prod.snd hrearm, rearm_fired henv]
        exact hgs
      obtain ⟨hs, hall⟩ : ∃ hs, s'.fired = r.fired ++ hs := by
        dsimp only at hrest
        split at hrest
        · exact rtcTimerDoWork_fired henv hrest
        · obtain rfl := Option.some_inj.mp hrest
          exact ⟨[], (List.append_nil _).symm⟩
      rw [hr, List.append_assoc] at hall
      exact absurd (List.pairwise_append.mp (horder _ hall)).1 hnot

/-- **A run of the work** does what it is for, for some number of rounds, if and only if what it
settles to is in range. -/
theorem rtcTimerDoWork_expired_iff (henv : env.Lawful) (hround : env.RoundsUp) (hq : QueueOk s)
    (hperiod : ∀ t ∈ s.timerqueue, 0 ≤ (s.timers t).period) (herrs : AnswersOk s.setAlarmErrs) :
    (∃ n s', env.rtcTimerDoWork n s = some s' ∧ Expired env n s s') ↔ InRange env s := by
  have hperiod' : ∀ t ∈ s.timerqueue, 0 ≤ (s.timers t).period.toInt := fun t ht =>
    Int64.le_iff_toInt_le.mp (hperiod t ht)
  have hstart := Fired.start hq
  have hzero : ∀ t, (s.timers t).period = 0 ↔ (s.timers t).period.toInt = 0 := fun t =>
    ktime_eq_zero
  constructor
  · rintro ⟨n, s', hrun, hexp⟩
    obtain ⟨k, gs, hsettles, hfits, hfired, hall, hafter⟩ := settles_of_run henv hperiod' hrun herrs
      hstart nofun fun _ => hexp.pairwise
    refine ⟨k, env.now s', hsettles, fun t ht x hx => ⟨hfits t ht x hx, ?_⟩⟩
    have hmem := ((hfired.leftAfter_eq hperiod' hall hafter ht).mp hx).1
    have hlast : ∀ k : Ktime, k ≤ ktimeMax := fun k =>
      Int64.le_iff_toInt_le.mpr (Int.lt_add_one_iff.mp k.toInt_lt)
    by_cases hp : (s.timers t).period = 0
    · refine Int64.lt_of_lt_of_le (Int64.not_le.mp fun hle => ?_) (hlast (s.expires t))
      exact (hexp.oneShot t ht hp hle).2.2 hmem
    · exact Int64.lt_of_lt_of_le (hexp.periodic t ht hp).2.2 (hlast (s'.expires t))
  · rintro ⟨k, T, hsettles, hrange⟩
    obtain ⟨N, hN⟩ := hsettles.ran henv hround hperiod' hrange rfl herrs hstart
      nofun
    obtain ⟨s', hran⟩ := hN N (Nat.le_refl N)
    have hfired := hran.fired
    have hbefore := hran.before
    have hafter := hran.after
    rw [List.nil_append] at hfired hbefore
    rw [← hran.now] at hbefore hafter
    have hcourse : ∀ {t}, t ∈ s.timerqueue → Course _ _ _ _ _ _ := fun ht =>
      hfired.course hperiod' hbefore hafter ht
    refine ⟨N, s', hran.run, hfired.fired, hran.early, hfired.order, fun t ht hp hle => ?_,
      fun t ht hp => ?_, fun t ht => ?_⟩
    · have hc := hcourse ht
      rw [(hzero t).mp hp, Expiry.count_oneShot (Int64.le_iff_toInt_le.mp hle)] at hc
      have hoff : t ∉ s'.timerqueue := fun hmem => absurd (hc.queued.mp hmem rfl) Nat.one_ne_zero
      refine ⟨?_, ?_, hoff⟩
      · rw [hc.fired]
        simp [Expiry.expiries]
      · exact Bool.eq_false_iff.mpr fun hon => hoff ((hfired.queueOk.enabled t).mp hon)
    · have hc := hcourse ht
      have hmem := hc.queued.mpr fun h0 => absurd ((hzero t).mpr h0) hp
      exact ⟨hc.fired, hmem, hafter t hmem⟩
    · by_cases hmem : t ∈ s.timerqueue
      · obtain ⟨hp, hlt⟩ := ht.resolve_left fun hout => hout hmem
        have hc := hcourse hmem
        rw [(hzero t).mp hp, Expiry.count_of_lt (Int64.lt_iff_toInt_lt.mp hlt)] at hc
        exact hc.fired
      · exact (hfired.outside t hmem).2

/-! ### Two timers -/

theorem counterEnv_roundsUp : counterEnv.RoundsUp := by
  have hktime : ∀ tm : Int, 0 ≤ tm →
      (counterEnv.tmToKtime tm).toInt = min (tm * 1000000000) 9223372036854775807 := fun tm htm =>
    Int64.toInt_ofInt_of_le (by omega) (by omega)
  have hmax : ktimeMax.toInt = 9223372036854775807 := rfl
  have htime : ∀ tm : Int, 0 ≤ tm → tm < 9223372036854775808 →
      (counterEnv.tmToTime64 tm).toInt = tm := fun tm h0 h1 =>
    Int64.toInt_ofInt_of_le (by omega) (by omega)
  have hup : ∀ k : Ktime, counterEnv.ktimeToTm k = - (- k.toInt / 1000000000) := fun _ => rfl
  refine ⟨fun tm k htm hk hle => ?_, fun tm k htm hk hlt hle => ?_⟩
  · have htm : 0 ≤ tm := of_decide_eq_true htm
    have hk : 0 ≤ counterEnv.ktimeToTm k := of_decide_eq_true hk
    have hlast := k.toInt_lt
    rw [Int64.le_iff_toInt_le, hktime tm htm]
    rw [Int64.le_iff_toInt_le] at hle
    by_cases hbig : tm < 9223372036854775808
    · rw [htime tm htm hbig, htime _ hk (by rw [hup]; omega), hup] at hle
      omega
    · omega
  · have htm : 0 ≤ tm := of_decide_eq_true htm
    have hk : 0 ≤ counterEnv.ktimeToTm k := of_decide_eq_true hk
    rw [Int64.lt_iff_toInt_lt, hktime tm htm, hmax] at hlt
    rw [Int64.le_iff_toInt_le, hktime tm htm] at hle
    have hsecs := hup k
    rw [Int64.le_iff_toInt_le, htime tm htm (by omega), htime _ hk (by omega)]
    omega

/-- One timer at 5 s, and one at 2 s with the period `p`, at 9 s. -/
def twoTimers (p : Ktime) : RtcDevice Int :=
  { rtcDeviceInit Int with
    timers := fun t =>
      if t = .kernel 0 then ⟨5000000000, 0, true⟩
      else if t = .kernel 1 then ⟨2000000000, p, true⟩
      else ⟨0, 0, false⟩
    timerqueue := [.kernel 1, .kernel 0]
    clock := 9 }

theorem queueOk_twoTimers (p : Ktime) : QueueOk (twoTimers p) := by
  refine QueueOk.mk (fun t => ?_) (show [TimerId.kernel 1, .kernel 0].Nodup by decide) ?_
  · simp only [twoTimers, List.mem_cons, List.not_mem_nil, or_false]
    split
    next h => simp [h]
    next h =>
      split
      next h' => simp [h']
      next h' => simp [h, h']
  · exact List.pairwise_pair.mpr (by decide : (2000000000 : Ktime) ≤ 5000000000)

/-- With a period of 3 s the second timer is fired at 2 s, 5 s and 8 s, and waits for 11 s. -/
theorem rtcTimerDoWork_expired_twoTimers : ∃ n s',
    counterEnv.rtcTimerDoWork n (twoTimers 3000000000) = some s' ∧
      Expired counterEnv n (twoTimers 3000000000) s' := by
  have hleft : leftAfter (twoTimers 3000000000) 9000000000 (.kernel 1) = some 11000000000 ∧
      leftAfter (twoTimers 3000000000) 9000000000 (.kernel 0) = none := by decide +kernel
  have hall : ∀ t ∈ (twoTimers 3000000000).timerqueue, ∀ x,
      leftAfter (twoTimers 3000000000) 9000000000 t = some x → x = 11000000000 := by
    intro t ht x hx
    rcases List.mem_pair.mp ht with rfl | rfl
    · exact (Option.some_inj.mp (hleft.1.symm.trans hx)).symm
    · rw [hleft.2] at hx
      cases hx
  have hlater : ¬ counterEnv.Passed (twoTimers 3000000000).reads.next.next 11000000000 := by
    unfold RtcEnv.Passed
    decide +kernel
  have hmax : counterEnv.timeAt (twoTimers 3000000000).reads.next.next < ktimeMax := by
    decide +kernel
  exact (rtcTimerDoWork_expired_iff counterEnv_lawful counterEnv_roundsUp (queueOk_twoTimers _)
    (by decide) nofun).mpr
      ⟨_, _, Settles.armed ⟨⟨.kernel 1, by decide, hleft.1⟩, fun t ht y hy =>
        Int.le_of_eq (hall t ht y hy).symm⟩ hlater rfl, fun t ht x hx =>
          ⟨(hall t ht x hx).symm ▸ by decide, hmax⟩⟩

/-- With the longest period that there is, the second timer comes back long before 1970, and no run
fires the timers in order. -/
theorem not_rtcTimerDoWork_expired_longest : ¬ ∃ n s',
    counterEnv.rtcTimerDoWork n (twoTimers ktimeMax) = some s' ∧
      Expired counterEnv n (twoTimers ktimeMax) s' := by
  rintro ⟨n, s', hrun, hexp⟩
  have hperiod : ∀ t ∈ (twoTimers ktimeMax).timerqueue,
      0 ≤ ((twoTimers ktimeMax).timers t).period.toInt := by decide
  obtain ⟨k, gs, hsettles, hfits, -⟩ := settles_of_run counterEnv_lawful hperiod hrun
    nofun (Fired.start (queueOk_twoTimers _))
    nofun fun _ => hexp.pairwise
  have hnow := hfits.mono hperiod (hsettles.le counterEnv_lawful)
  have hleft : leftAfter (twoTimers ktimeMax)
      (counterEnv.timeAt (twoTimers ktimeMax).reads.next) (.kernel 1) =
        some 9223372038854775807 := by decide +kernel
  exact absurd (hnow (.kernel 1) (by decide) _ hleft) (by decide)

end RealtekIpcam.Rtc
