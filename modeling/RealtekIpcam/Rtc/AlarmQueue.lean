import RealtekIpcam.Lib.Runs
import RealtekIpcam.Rtc.Model

/-!
# The queue and the alarm

A timer is enabled just when it is on the queue.  As to the alarm, what the core
keeps up is not that it is set for the first entry: when a timer is enqueued, entries
that are already due are skipped, since the interrupt that is to expire them is on its
way, and the alarm may go to a later timer.  So it is set for the first entry as long
as that is not due, and otherwise for no later than any entry that is not due.

One call breaks even this: `rtc_alarm_irq_enable` switches the interrupt off for good
when the alarm of user space is disabled, whoever else is on the queue.
-/

namespace RealtekIpcam.Rtc

variable {Tm : Type}

/-- What the core relies on: the time that it reads is valid and does not go back, and
a time from then on is valid too; a timer is added to the queue in its place. -/
structure RtcEnv.Lawful (env : RtcEnv Tm) : Prop where
  valid : ∀ clock, env.validTm (env.coreTime clock) = true
  mono : ∀ c c', c ≤ c' → env.tmToKtime (env.coreTime c) ≤ env.tmToKtime (env.coreTime c')
  validTm_of_le : ∀ tm k, env.validTm tm = true → env.tmToKtime tm ≤ k →
    env.validTm (env.ktimeToTm k) = true
  add_perm : ∀ expires t q, (env.timerqueueAdd expires t q).Perm (t :: q)
  add_sorted : ∀ expires t q, q.Pairwise (fun u v => expires u ≤ expires v) →
    (env.timerqueueAdd expires t q).Pairwise fun u v => expires u ≤ expires v

/-- The time, in a state. -/
def RtcEnv.now (env : RtcEnv Tm) (s : RtcDevice Tm) : Ktime := env.tmToKtime (env.coreTime s.clock)

/-- The alarm is armed, and set for an expiry, in the time of the hardware. -/
def ArmedAt (env : RtcEnv Tm) (s : RtcDevice Tm) (k : Ktime) : Prop :=
  s.alarmEnabled = true ∧ s.alarmTime = some (env.rtcSubtractOffset (env.ktimeToTm k))

/-- The queue and the flags. -/
structure QueueInv (s : RtcDevice Tm) : Prop where
  enabled : ∀ t, (s.timers t).enabled = true ↔ t ∈ s.timerqueue
  nodup : s.timerqueue.Nodup
  sorted : s.timerqueue.Pairwise fun t u => s.expires t ≤ s.expires u
  errs : s.setAlarmErrs = []

/-- Where the alarm is: at the earliest expiry, or, when that is due, at none that is
later than one that is not. -/
def AlarmOk (env : RtcEnv Tm) (s : RtcDevice Tm) : Prop :=
  ∃ k, ArmedAt env s k ∧
    (∀ t ∈ s.timerqueue, (∀ u ∈ s.timerqueue, s.expires t ≤ s.expires u) →
      env.now s ≤ s.expires t → k = s.expires t) ∧
    ∀ t ∈ s.timerqueue, env.now s ≤ s.expires t → k ≤ s.expires t

/-- What holds between the calls. -/
structure Inv (env : RtcEnv Tm) (s : RtcDevice Tm) : Prop extends QueueInv s where
  valid : ∀ t ∈ s.timerqueue, env.validTm (env.ktimeToTm (s.expires t)) = true
  alarm : s.irqwork = false → s.timerqueue ≠ [] → AlarmOk env s

/-! ## The fields -/

namespace RtcDevice

variable (s : RtcDevice Tm) (t u : TimerId) (timer : RtcTimer) (enabled : Bool)

@[simp] theorem setTimer_timers :
    (s.setTimer t timer).timers u = if u = t then timer else s.timers u :=
  Function.update_apply s.timers t timer u

@[simp] theorem setTimer_timerqueue : (s.setTimer t timer).timerqueue = s.timerqueue := rfl

theorem setTimer_expires_of_ne (h : u ≠ t) : (s.setTimer t timer).expires u = s.expires u := by
  rw [expires, setTimer_timers, if_neg h, expires]

@[simp] theorem setEnabled_enabled :
    ((s.setEnabled t enabled).timers u).enabled =
      if u = t then enabled else (s.timers u).enabled := by
  rw [setEnabled, setTimer_timers]
  split <;> rfl

@[simp] theorem setEnabled_expires : (s.setEnabled t enabled).expires = s.expires := by
  funext u
  rw [expires, setEnabled, setTimer_timers, expires]
  split
  next hu => rw [hu]
  next => rfl

@[simp] theorem setEnabled_timerqueue : (s.setEnabled t enabled).timerqueue = s.timerqueue := rfl

end RtcDevice

variable {env : RtcEnv Tm} {s s' : RtcDevice Tm} {t : TimerId} {k : Ktime}

theorem now_tick_le (henv : env.Lawful) (h : s.clock ≤ s'.clock) : env.now s ≤ env.now s' :=
  henv.mono _ _ h

theorem readTime_eq (henv : env.Lawful) (s : RtcDevice Tm) :
    env.readTime s = ((0, env.coreTime s.tick.clock), s.tick) := by
  simp only [RtcEnv.readTime, henv.valid, if_true]

/-- What reads of the time and the alarm leave alone. -/
structure Kept (s s' : RtcDevice Tm) : Prop where
  timers : s'.timers = s.timers
  timerqueue : s'.timerqueue = s.timerqueue
  irqwork : s'.irqwork = s.irqwork
  clock : s.clock ≤ s'.clock
  errs : s.setAlarmErrs = [] → s'.setAlarmErrs = []

theorem Kept.expires (h : Kept s s') : s'.expires = s.expires := by
  funext u
  rw [RtcDevice.expires, h.timers, RtcDevice.expires]

theorem tick_kept (s : RtcDevice Tm) : Kept s s.tick :=
  ⟨rfl, rfl, rfl, Nat.le_add_right _ _, id⟩

theorem QueueInv.of_kept (h : QueueInv s) (hk : Kept s s') : QueueInv s' := by
  refine ⟨fun u => ?_, hk.timerqueue ▸ h.nodup, ?_, hk.errs h.errs⟩
  · rw [hk.timers, hk.timerqueue]
    exact h.enabled u
  · rw [hk.timerqueue, hk.expires]
    exact h.sorted

/-- **`__rtc_set_alarm`**, for a valid time: it sets the alarm, or finds it due. -/
theorem setAlarm_spec (henv : env.Lawful) (herrs : s.setAlarmErrs = [])
    (hvalid : env.validTm (env.ktimeToTm k) = true) :
    ∃ err alarm s', env.setAlarm s ⟨true, env.ktimeToTm k⟩ = ((err, alarm), s') ∧ Kept s s' ∧
      (err = - ETIME ∨ err = 0 ∧ ArmedAt env s' k) := by
  simp only [RtcEnv.setAlarm, hvalid, if_true, readTime_eq henv, ne_eq, not_true_eq_false, if_false]
  split
  · exact ⟨_, _, _, rfl, tick_kept s, Or.inl rfl⟩
  · have herr : s.tick.setAlarmErrs = [] := herrs
    simp only [RtcDevice.setAlarm, herr, List.headD_nil, if_true]
    exact ⟨_, _, _, rfl, ⟨rfl, rfl, rfl, (tick_kept s).clock, fun _ => rfl⟩,
      Or.inr ⟨rfl, rfl, rfl⟩⟩

theorem AlarmOk.of_head (hq : QueueInv s) {rest : List TimerId} (hcons : s.timerqueue = t :: rest)
    (harmed : ArmedAt env s (s.expires t)) : AlarmOk env s := by
  have hfirst : ∀ u ∈ s.timerqueue, s.expires t ≤ s.expires u := by
    intro u hu
    have hsorted := hq.sorted
    rw [hcons] at hu hsorted
    rcases List.mem_cons.mp hu with rfl | hu
    · exact Int64.le_refl _
    · exact List.rel_of_pairwise_cons hsorted hu
  have hmem : t ∈ s.timerqueue := hcons ▸ List.mem_cons_self
  exact ⟨s.expires t, harmed, fun u hu hleast _ => Int64.le_antisymm (hfirst u hu) (hleast t hmem),
    fun u hu _ => hfirst u hu⟩

theorem AlarmOk.of_mem (henv : env.Lawful) (h : AlarmOk env s)
    (halarm : s'.alarmEnabled = s.alarmEnabled ∧ s'.alarmTime = s.alarmTime)
    (hclock : s.clock ≤ s'.clock) (hmem : ∀ u, u ∈ s'.timerqueue ↔ u ∈ s.timerqueue)
    (hexpires : ∀ u ∈ s.timerqueue, s'.expires u = s.expires u) : AlarmOk env s' := by
  obtain ⟨k, harmed, hleast, hle⟩ := h
  have hnow := now_tick_le henv hclock
  refine ⟨k, ?_, fun t ht hfirst hdue => ?_, fun t ht hdue => ?_⟩
  · rwa [ArmedAt, halarm.1, halarm.2]
  · have ht' := (hmem t).mp ht
    rw [hexpires t ht'] at hdue hfirst ⊢
    refine hleast t ht' (fun u hu => ?_) (Int64.le_trans hnow hdue)
    rw [← hexpires u hu]
    exact hfirst u ((hmem u).mpr hu)
  · have ht' := (hmem t).mp ht
    rw [hexpires t ht'] at hdue ⊢
    exact hle t ht' (Int64.le_trans hnow hdue)

theorem QueueInv.del (h : QueueInv s) (t : TimerId) :
    QueueInv ((s.timerqueueDel t).setEnabled t false) := by
  have hqueue : ((s.timerqueueDel t).setEnabled t false).timerqueue = s.timerqueue.erase t := rfl
  refine ⟨fun u => ?_, h.nodup.erase t, ?_, h.errs⟩
  · rw [RtcDevice.setEnabled_enabled, hqueue]
    split
    next hu =>
      rw [hu]
      exact iff_of_false nofun h.nodup.not_mem_erase
    next hu =>
      rw [List.mem_erase_of_ne hu]
      exact h.enabled u
  · rw [RtcDevice.setEnabled_expires]
    exact h.sorted.sublist List.erase_sublist

theorem AlarmOk.del (hq : QueueInv s) (h : AlarmOk env s) {u : TimerId} {rest : List TimerId}
    (hcons : s.timerqueue = u :: rest) (hne : u ≠ t) :
    AlarmOk env ((s.timerqueueDel t).setEnabled t false) := by
  obtain ⟨k, harmed, hleast, hle⟩ := h
  have hsub : ∀ v ∈ s.timerqueue.erase t, v ∈ s.timerqueue := fun v => List.mem_of_mem_erase
  have hexpires := RtcDevice.setEnabled_expires (s.timerqueueDel t) t false
  refine ⟨k, harmed, fun v hv hfirst hdue => ?_, fun v hv hdue => ?_⟩
  · rw [hexpires] at hfirst hdue ⊢
    have hu : u ∈ s.timerqueue.erase t :=
      (List.mem_erase_of_ne hne).mpr (hcons ▸ List.mem_cons_self)
    refine hleast v (hsub v hv) (fun w hw => Int64.le_trans (hfirst u hu) ?_) hdue
    have hsorted := hq.sorted
    rw [hcons] at hw hsorted
    rcases List.mem_cons.mp hw with rfl | hw
    · exact Int64.le_refl _
    · exact List.rel_of_pairwise_cons hsorted hw
  · rw [hexpires] at hdue ⊢
    exact hle v (hsub v hv) hdue

/-- **`rtc_timer_remove`**: the timer is off the queue, and if it was the first, the alarm
goes to the next. -/
theorem Inv.remove (henv : env.Lawful) (h : Inv env s) (t : TimerId) :
    Inv env (env.rtcTimerRemove s t) ∧
      (env.rtcTimerRemove s t).timerqueue = s.timerqueue.erase t ∧
      (s.irqwork = true → (env.rtcTimerRemove s t).irqwork = true) := by
  have hq := h.toQueueInv.del t
  have hvalid : ∀ u ∈ s.timerqueue.erase t, env.validTm (env.ktimeToTm (s.expires u)) = true :=
    fun u hu => h.valid u (List.mem_of_mem_erase hu)
  have hexpires := RtcDevice.setEnabled_expires (s.timerqueueDel t) t false
  simp only [RtcEnv.rtcTimerRemove]
  split
  next hfirst =>
    split
    next hnil =>
      refine ⟨⟨⟨hq.enabled, hq.nodup, hq.sorted, hq.errs⟩, fun u hu => ?_, fun _ hne => ?_⟩,
        rfl, id⟩
      · rw [RtcDevice.alarmIrqEnable, hnil] at hu
        cases hu
      · exact absurd hnil hne
    next u rest hcons =>
      have hu : u ∈ s.timerqueue.erase t := by
        have hmem : u ∈ ((s.timerqueueDel t).setEnabled t false).timerqueue :=
          hcons ▸ List.mem_cons_self
        exact hmem
      have hvalidU := hvalid u hu
      rw [← show _ = s.expires u from congrFun hexpires u] at hvalidU
      obtain ⟨err, alarm, s', heq, hkept, hresult⟩ := setAlarm_spec henv hq.errs hvalidU
      have hq' := hq.of_kept hkept
      have hvalid' : ∀ v ∈ s'.timerqueue, env.validTm (env.ktimeToTm (s'.expires v)) = true := by
        intro v hv
        rw [hkept.expires, hexpires]
        rw [hkept.timerqueue] at hv
        exact hvalid v hv
      rw [heq]
      rcases hresult with rfl | ⟨rfl, harmed⟩
      · simp only [if_true]
        exact ⟨⟨⟨hq'.enabled, hq'.nodup, hq'.sorted, hq'.errs⟩, hvalid',
          fun hirq => (by cases hirq)⟩,
          hkept.timerqueue, fun _ => rfl⟩
      · have hne : ¬ (0 : Int) = - ETIME := by decide
        simp only [if_neg hne]
        refine ⟨⟨hq', hvalid', fun _ _ => ?_⟩, hkept.timerqueue,
          fun hirq => hkept.irqwork.trans hirq⟩
        refine AlarmOk.of_head hq' (hkept.timerqueue.trans hcons) ?_
        rwa [hkept.expires]
  next hother =>
    refine ⟨⟨hq, fun u hu => ?_, fun hirq hne => ?_⟩, rfl, id⟩
    · rw [hexpires]
      exact hvalid u hu
    · cases hcons : s.timerqueue with
      | nil =>
        refine absurd ?_ hne
        show s.timerqueue.erase t = []
        rw [hcons]
        rfl
      | cons u rest =>
        have hut : u ≠ t := fun hut => hother (by rw [hcons, hut]; rfl)
        exact (h.alarm hirq (by rw [hcons]; exact List.cons_ne_nil _ _)).del h.toQueueInv hcons hut

/-! ## Adding a timer -/

theorem QueueInv.add (henv : env.Lawful) (h : QueueInv s) (ht : t ∉ s.timerqueue) {timer : RtcTimer}
    (hon : timer.enabled = true) :
    QueueInv (env.addTimer (s.setTimer t timer) t) := by
  have hperm := henv.add_perm (s.setTimer t timer).expires t s.timerqueue
  refine ⟨fun u => ?_, hperm.nodup_iff.mpr (List.nodup_cons.mpr ⟨ht, h.nodup⟩), ?_, h.errs⟩
  · show ((s.setTimer t timer).timers u).enabled = true ↔ u ∈ env.timerqueueAdd _ t s.timerqueue
    rw [hperm.mem_iff, List.mem_cons, RtcDevice.setTimer_timers]
    split
    next hu => exact iff_of_true hon (Or.inl hu)
    next hu =>
      rw [h.enabled u]
      exact ⟨Or.inr, fun hor => hor.resolve_left hu⟩
  · refine henv.add_sorted _ t _ (h.sorted.imp_of_mem fun {u v} hu hv huv => ?_)
    have hne : ∀ {w}, w ∈ s.timerqueue → w ≠ t := fun hw hwt => ht (hwt ▸ hw)
    show (s.setTimer t timer).expires u ≤ (s.setTimer t timer).expires v
    rwa [RtcDevice.setTimer_expires_of_ne _ _ _ _ (hne hu),
      RtcDevice.setTimer_expires_of_ne _ _ _ _ (hne hv)]

/-- The first timer that has not expired is the earliest one. -/
theorem next_spec {expires : TimerId → Ktime} (now : Ktime) {q : List TimerId}
    (hsorted : q.Pairwise fun u v => expires u ≤ expires v) :
    (∀ v, (q.dropWhile fun u => expires u < now).head? = some v → v ∈ q ∧ now ≤ expires v) ∧
    ∀ u ∈ q, now ≤ expires u →
      ∃ v, (q.dropWhile fun u => expires u < now).head? = some v ∧ expires v ≤ expires u := by
  induction q with
  | nil => exact ⟨fun v hv => (by cases hv), fun u hu => (by cases hu)⟩
  | cons w q ih =>
    obtain ⟨hnext, hexists⟩ := ih hsorted.of_cons
    by_cases hw : expires w < now
    · rw [List.dropWhile_cons_of_pos (by simpa using hw)]
      refine ⟨fun v hv => ⟨List.mem_cons_of_mem w (hnext v hv).1, (hnext v hv).2⟩,
        fun u hu hdue => ?_⟩
      rcases List.mem_cons.mp hu with rfl | hu
      · exact absurd hdue (Int64.not_le.mpr hw)
      · exact hexists u hu hdue
    · rw [List.dropWhile_cons_of_neg (by simpa using hw)]
      refine ⟨fun v hv => ?_, fun u hu _ => ⟨w, rfl, ?_⟩⟩
      · obtain rfl := Option.some_inj.mp hv
        exact ⟨List.mem_cons_self, Int64.not_lt.mp hw⟩
      · rcases List.mem_cons.mp hu with rfl | hu
        · exact Int64.le_refl _
        · exact List.rel_of_pairwise_cons hsorted hu

theorem AlarmOk.of_first {now : Ktime} (hnow : now ≤ env.now s)
    (ht : t ∈ s.timerqueue) (harmed : ArmedAt env s (s.expires t))
    (hfirst : ∀ u ∈ s.timerqueue, now ≤ s.expires u → s.expires t ≤ s.expires u) :
    AlarmOk env s :=
  ⟨s.expires t, harmed,
    fun u hu hleast hdue =>
      Int64.le_antisymm (hfirst u hu (Int64.le_trans hnow hdue)) (hleast t ht),
    fun u hu hdue => hfirst u hu (Int64.le_trans hnow hdue)⟩

theorem AlarmOk.of_next (henv : env.Lawful) (h : AlarmOk env s) {v : TimerId}
    (halarm : s'.alarmEnabled = s.alarmEnabled ∧ s'.alarmTime = s.alarmTime)
    (hclock : s.clock ≤ s'.clock) (hmem : ∀ u, u ∈ s'.timerqueue ↔ u = t ∨ u ∈ s.timerqueue)
    (hexpires : s'.expires = s.expires) (hv : v ∈ s.timerqueue) (hdue : env.now s' ≤ s.expires v)
    (hle : s.expires v ≤ s.expires t) : AlarmOk env s' := by
  obtain ⟨k, harmed, hleast, hbefore⟩ := h
  have hnow := now_tick_le henv hclock
  have hkv := hbefore v hv (Int64.le_trans hnow hdue)
  refine ⟨k, ?_, fun u hu hfirst hdueU => ?_, fun u hu hdueU => ?_⟩
  · rwa [ArmedAt, halarm.1, halarm.2]
  · rw [hexpires] at hfirst hdueU ⊢
    have hall : ∀ w ∈ s.timerqueue, s.expires u ≤ s.expires w := fun w hw =>
      hfirst w ((hmem w).mpr (Or.inr hw))
    rcases (hmem u).mp hu with rfl | hu
    · -- The new timer expires together with the next one, which is the first then.
      have heq : s.expires v = s.expires u := Int64.le_antisymm hle (hall v hv)
      rw [← heq]
      exact hleast v hv (fun w hw => heq ▸ hall w hw) (Int64.le_trans hnow hdue)
    · exact hleast u hu hall (Int64.le_trans hnow hdueU)
  · rw [hexpires] at hdueU ⊢
    rcases (hmem u).mp hu with rfl | hu
    · exact Int64.le_trans hkv hle
    · exact hbefore u hu (Int64.le_trans hnow hdueU)

/-- What `rtc_timer_enqueue` has done when it comes to the alarm. -/
structure Added (env : RtcEnv Tm) (t : TimerId) (s s' : RtcDevice Tm) : Prop extends
    QueueInv s' where
  mem : ∀ u, u ∈ s'.timerqueue ↔ u = t ∨ u ∈ s.timerqueue
  expires : s'.expires = s.expires
  alarm : s'.alarmEnabled = s.alarmEnabled ∧ s'.alarmTime = s.alarmTime
  clock : s.clock ≤ s'.clock
  irqwork : s'.irqwork = s.irqwork

theorem QueueInv.added (henv : env.Lawful) (h : QueueInv s) (ht : t ∉ s.timerqueue) :
    Added env t s (env.addTimer (s.tick.setEnabled t true) t) := by
  have hkept := tick_kept s
  have hadd : QueueInv (env.addTimer (s.tick.setEnabled t true) t) :=
    (h.of_kept hkept).add henv ht rfl
  exact ⟨hadd, fun u => ((henv.add_perm _ t s.timerqueue).mem_iff).trans List.mem_cons,
    (RtcDevice.setEnabled_expires s.tick t true).trans hkept.expires, ⟨rfl, rfl⟩, hkept.clock, rfl⟩

theorem Added.undo (henv : env.Lawful) (h : Inv env s) (ha : Added env t s s')
    (ht : t ∉ s.timerqueue) : Inv env ((s'.timerqueueDel t).setEnabled t false) := by
  have hmem : ∀ u, u ∈ s'.timerqueue.erase t ↔ u ∈ s.timerqueue := by
    intro u
    rw [ha.nodup.mem_erase_iff, ha.mem]
    constructor
    · rintro ⟨hne, hor⟩
      exact hor.resolve_left hne
    · exact fun hu => ⟨fun hut => ht (hut ▸ hu), Or.inr hu⟩
  have hexpires : ((s'.timerqueueDel t).setEnabled t false).expires = s.expires :=
    (RtcDevice.setEnabled_expires (s'.timerqueueDel t) t false).trans ha.expires
  refine ⟨ha.toQueueInv.del t, fun u hu => ?_, fun hirq hne => ?_⟩
  · rw [hexpires]
    exact h.valid u ((hmem u).mp hu)
  · obtain ⟨u, hu⟩ := List.exists_mem_of_ne_nil _ hne
    have hok := h.alarm (ha.irqwork ▸ hirq) (List.ne_nil_of_mem ((hmem u).mp hu))
    exact hok.of_mem henv ha.alarm ha.clock hmem fun v _ => congrFun hexpires v

/-- **`rtc_timer_enqueue`**: the timer is on the queue, or its time is not valid.  The
alarm is set for it, unless it goes off before anyway. -/
theorem Inv.enqueue (henv : env.Lawful) (h : Inv env s) (ht : t ∉ s.timerqueue) :
    Inv env (env.rtcTimerEnqueue s t).2 := by
  have ha := h.toQueueInv.added henv ht
  have hmemT : t ∈ (env.addTimer (s.tick.setEnabled t true) t).timerqueue :=
    (ha.mem t).mpr (Or.inl rfl)
  obtain ⟨hnext, hexists⟩ := next_spec (env.now s.tick) h.sorted
  have hnow := henv.valid s.tick.clock
  simp only [RtcEnv.rtcTimerEnqueue, readTime_eq henv, ne_eq, not_true_eq_false, if_false]
  have hdrop : (s.tick.timerqueue.dropWhile fun u =>
      s.tick.expires u < env.tmToKtime (env.coreTime s.tick.clock)).head? =
        (s.timerqueue.dropWhile fun u => s.expires u < env.now s.tick).head? := rfl
  simp only [RtcDevice.setEnabled_expires, RtcDevice.setEnabled_timerqueue, ha.expires, hdrop]
  generalize (s.timerqueue.dropWhile fun u => s.expires u < env.now s.tick).head? = next at *
  split
  next hall =>
    by_cases hvalid : env.validTm (env.ktimeToTm (s.expires t)) = true
    · obtain ⟨err, alarm, s', heq, hkept, hresult⟩ := setAlarm_spec henv ha.errs hvalid
      have hq := ha.toQueueInv.of_kept hkept
      have hexpires : s'.expires = s.expires := hkept.expires.trans ha.expires
      have hvalidQ : ∀ u ∈ s'.timerqueue, env.validTm (env.ktimeToTm (s'.expires u)) = true := by
        intro u hu
        rw [hkept.timerqueue, ha.mem] at hu
        rw [hexpires]
        rcases hu with rfl | hu
        · exact hvalid
        · exact h.valid u hu
      rw [heq]
      rcases hresult with rfl | ⟨rfl, harmed⟩
      · simp only [if_true]
        exact ⟨⟨hq.enabled, hq.nodup, hq.sorted, hq.errs⟩, hvalidQ, fun hirq => (by cases hirq)⟩
      · have hne : ¬ (0 : Int) = - ETIME := by decide
        simp only [if_neg hne, not_true_eq_false, if_false]
        refine ⟨hq, hvalidQ, fun _ _ => ?_⟩
        refine AlarmOk.of_first (t := t) (now_tick_le henv (s := s.tick) hkept.clock)
          (hkept.timerqueue ▸ hmemT) (hexpires ▸ harmed) fun u hu hdue => ?_
        rw [hkept.timerqueue, ha.mem] at hu
        rw [hexpires] at hdue ⊢
        rcases hu with rfl | hu
        · exact Int64.le_refl _
        · obtain ⟨v, rfl, hvu⟩ := hexists u hu hdue
          exact Int64.le_trans (Int64.le_of_lt (of_decide_eq_true hall)) hvu
    · have heq : env.setAlarm (env.addTimer (s.tick.setEnabled t true) t)
          ⟨true, env.ktimeToTm (s.expires t)⟩ =
            ((- EINVAL, ⟨true, env.ktimeToTm (s.expires t)⟩),
              env.addTimer (s.tick.setEnabled t true) t) := by
        simp only [RtcEnv.setAlarm, if_neg hvalid]
      have htime : ¬ - EINVAL = - ETIME := by decide
      have herr : ¬ - EINVAL = 0 := by decide
      rw [heq]
      simp only [if_neg htime, if_pos herr]
      exact ha.undo henv h ht
  next hall =>
    obtain ⟨v, hv, hvt⟩ : ∃ v, next = some v ∧ s.expires v ≤ s.expires t := by
      cases next with
      | none => exact absurd rfl hall
      | some v => exact ⟨v, rfl, Int64.not_lt.mp fun htv => hall (decide_eq_true htv)⟩
    obtain ⟨hmemV, hdue⟩ := hnext v hv
    refine ⟨ha.toQueueInv, fun u hu => ?_, fun hirq _ => ?_⟩
    · rw [ha.expires]
      rcases (ha.mem u).mp hu with rfl | hu
      · exact henv.validTm_of_le _ _ hnow (Int64.le_trans hdue hvt)
      · exact h.valid u hu
    · exact (h.alarm hirq (List.ne_nil_of_mem hmemV)).of_next henv ha.alarm ha.clock ha.mem
        ha.expires hmemV hdue hvt

theorem QueueInv.expireTimer (henv : env.Lawful) (h : QueueInv s) (t : TimerId) :
    QueueInv (env.expireTimer s t) := by
  have hdel := h.del t
  have hlog : ∀ fired, QueueInv { (s.timerqueueDel t).setEnabled t false with fired := fired } :=
    fun _ => ⟨hdel.enabled, hdel.nodup, hdel.sorted, hdel.errs⟩
  simp only [RtcEnv.expireTimer]
  split
  · exact (hlog _).add henv h.nodup.not_mem_erase rfl
  · exact hlog _

theorem QueueInv.expireTimers (henv : env.Lawful) {now : Ktime} (n : Nat) {s s' : RtcDevice Tm}
    (h : QueueInv s) (hloop : env.expireTimers now n s = some s') :
    QueueInv s' ∧ ∀ u ∈ s'.timerqueue, now < s'.expires u := by
  induction n generalizing s with
  | zero => cases hloop
  | succ n ih =>
    rw [RtcEnv.expireTimers] at hloop
    split at hloop
    next hnil =>
      obtain rfl := Option.some_inj.mp hloop
      refine ⟨h, fun u hu => ?_⟩
      rw [hnil] at hu
      cases hu
    next t rest hcons =>
      split at hloop
      next hlater =>
        obtain rfl := Option.some_inj.mp hloop
        refine ⟨h, fun u hu => ?_⟩
        have hsorted := h.sorted
        rw [hcons] at hu hsorted
        rcases List.mem_cons.mp hu with rfl | hu
        · exact hlater
        · exact Int64.lt_of_lt_of_le hlater (List.rel_of_pairwise_cons hsorted hu)
      next => exact ih (h.expireTimer henv t) hloop

theorem reprogram_spec (henv : env.Lawful) (herrs : s.setAlarmErrs = [])
    (hvalid : env.validTm (env.ktimeToTm k) = true) (retry : Nat) :
    ∃ err s', env.reprogram retry s ⟨true, env.ktimeToTm k⟩ = (err, s') ∧ Kept s s' ∧
      (err = - ETIME ∨ err = 0 ∧ ArmedAt env s' k) := by
  obtain ⟨err, alarm, s', heq, hkept, hresult⟩ := setAlarm_spec henv herrs hvalid
  have hdone : err = 0 ∨ err = - ETIME := hresult.elim Or.inr fun hok => Or.inl hok.1
  refine ⟨err, s', ?_, hkept, hresult⟩
  rw [RtcEnv.reprogram, heq]
  exact if_pos hdone

/-- **`rtc_timer_do_work`** leaves the alarm at the first entry, wherever it was. -/
theorem QueueInv.doWork (henv : env.Lawful) (n : Nat) {s s' : RtcDevice Tm} (h : QueueInv s)
    (hwork : env.rtcTimerDoWork n s = some s') : Inv env s' := by
  induction n generalizing s with
  | zero => cases hwork
  | succ n ih =>
    rw [RtcEnv.rtcTimerDoWork, readTime_eq henv] at hwork
    obtain ⟨e, hloop, hwork⟩ := Option.bind_eq_some_iff.mp hwork
    obtain ⟨he, hlater⟩ := (h.of_kept (tick_kept s)).expireTimers henv (n + 1) hloop
    have hvalid : ∀ u ∈ e.timerqueue, env.validTm (env.ktimeToTm (e.expires u)) = true :=
      fun u hu => henv.validTm_of_le _ _ (henv.valid _) (Int64.le_of_lt (hlater u hu))
    split at hwork
    next hnil =>
      obtain rfl := Option.some_inj.mp hwork
      exact ⟨⟨he.enabled, he.nodup, he.sorted, he.errs⟩, hvalid, fun _ hne => absurd hnil hne⟩
    next t rest hcons =>
      obtain ⟨err, r, heq, hkept, hresult⟩ :=
        reprogram_spec henv he.errs (hvalid t (hcons ▸ List.mem_cons_self)) 3
      have hr := he.of_kept hkept
      rw [heq] at hwork
      have htime : ¬ - ETIME = 0 := by decide
      rcases hresult with rfl | ⟨rfl, harmed⟩
      · simp only [if_neg htime, if_true] at hwork
        exact ih hr hwork
      · simp only [if_true] at hwork
        obtain rfl := Option.some_inj.mp hwork
        refine ⟨hr, fun u hu => ?_, fun _ _ => AlarmOk.of_head hr (hkept.timerqueue.trans hcons) ?_⟩
        · rw [hkept.expires]
          exact hvalid u (hkept.timerqueue ▸ hu)
        · rwa [hkept.expires]

/-! ## The calls -/

theorem Inv.setTimer (henv : env.Lawful) (h : Inv env s) (ht : t ∉ s.timerqueue)
    (timer : RtcTimer) (hoff : timer.enabled = (s.timers t).enabled) :
    Inv env (s.setTimer t timer) := by
  have hexpires : ∀ u ∈ s.timerqueue, (s.setTimer t timer).expires u = s.expires u := fun u hu =>
    RtcDevice.setTimer_expires_of_ne s t u timer fun hut => ht (hut ▸ hu)
  refine ⟨⟨fun u => ?_, h.nodup, h.sorted.imp_of_mem fun {u v} hu hv huv => ?_, h.errs⟩,
    fun u hu => ?_, fun hirq hne => ?_⟩
  · rw [RtcDevice.setTimer_timerqueue, ← h.enabled u, RtcDevice.setTimer_timers]
    split
    next hu => rw [hoff, hu]
    next => rfl
  · rwa [hexpires u hu, hexpires v hv]
  · rw [hexpires u hu]
    exact h.valid u hu
  · exact (h.alarm hirq hne).of_mem henv ⟨rfl, rfl⟩ (Nat.le_refl _) (fun _ => Iff.rfl) hexpires

theorem Inv.stop (henv : env.Lawful) (h : Inv env s) (t : TimerId) :
    Inv env (if (s.timers t).enabled then env.rtcTimerRemove s t else s) ∧
      t ∉ (if (s.timers t).enabled then env.rtcTimerRemove s t else s).timerqueue := by
  split
  next =>
    obtain ⟨hinv, hqueue, -⟩ := h.remove henv t
    refine ⟨hinv, ?_⟩
    rw [hqueue]
    exact h.nodup.not_mem_erase
  next hoff => exact ⟨h, fun ht => hoff ((h.enabled t).mpr ht)⟩

theorem Inv.of_kept (henv : env.Lawful) (h : Inv env s) (hk : Kept s s')
    (halarm : s'.alarmEnabled = s.alarmEnabled ∧ s'.alarmTime = s.alarmTime) : Inv env s' := by
  refine ⟨h.toQueueInv.of_kept hk, fun u hu => ?_, fun hirq hne => ?_⟩
  · rw [hk.expires]
    exact h.valid u (hk.timerqueue ▸ hu)
  · exact (h.alarm (hk.irqwork ▸ hirq) (hk.timerqueue ▸ hne)).of_mem henv halarm hk.clock
      (fun u => by rw [hk.timerqueue]) fun u _ => congrFun hk.expires u

theorem Inv.restart (henv : env.Lawful) (h : Inv env s) (t : TimerId) (timer : RtcTimer → RtcTimer)
    (hoff : ∀ x, (timer x).enabled = x.enabled) {r : RtcDevice Tm}
    (hr : r = if (s.timers t).enabled then env.rtcTimerRemove s t else s) :
    Inv env (r.setTimer t (timer (r.timers t))) ∧
      Inv env (env.rtcTimerEnqueue (r.setTimer t (timer (r.timers t))) t).2 := by
  obtain ⟨hinv, hout⟩ := h.stop henv t
  rw [← hr] at hinv hout
  have hset := hinv.setTimer henv hout (timer (r.timers t)) (hoff _)
  exact ⟨hset, hset.enqueue henv hout⟩

theorem Inv.rtcSetAlarm (henv : env.Lawful) (h : Inv env s) (signal : Bool) (alarm : RtcWkalrm Tm) :
    Inv env (env.rtcSetAlarm s signal alarm).2 := by
  obtain ⟨hset, henqueue⟩ := h.restart henv .aie
    (fun x => { x with expires := env.tmToKtime alarm.time, period := 0 }) (fun _ => rfl) rfl
  simp only [RtcEnv.rtcSetAlarm]
  split
  · exact h
  · split
    · exact h
    · split
      · exact h
      · split
        · exact henqueue
        · exact hset

theorem Inv.rtcTimerStart (henv : env.Lawful) (h : Inv env s) (t : TimerId)
    (expires period : Ktime) : Inv env (env.rtcTimerStart s t expires period).2 :=
  (h.restart henv t (fun x => { x with expires := expires, period := period }) (fun _ => rfl) rfl).2

theorem Inv.rtcUpdateIrqEnable (henv : env.Lawful) (h : Inv env s) (signal enabled : Bool) :
    Inv env (env.rtcUpdateIrqEnable s signal enabled).2 := by
  simp only [RtcEnv.rtcUpdateIrqEnable]
  split
  · exact h
  · split
    · exact h
    next hchange =>
      split
      · exact h
      · split
        next hon =>
          have htick := h.of_kept henv (tick_kept s) ⟨rfl, rfl⟩
          have hout : .uie ∉ s.timerqueue := by
            rw [← h.enabled, ← hon]
            exact hchange
          rw [readTime_eq henv]
          have hset := htick.setTimer henv hout
            { s.tick.timers .uie with
              expires := env.tmToKtime (env.coreTime s.tick.clock) + 1000000000
              period := 1000000000 } rfl
          exact hset.enqueue henv hout
        next => exact (h.remove henv .uie).1

/-- Enabling or disabling the alarm keeps the queue in order. -/
theorem Inv.rtcAlarmIrqEnable (henv : env.Lawful) (h : Inv env s) (signal enabled : Bool)
    (halone : signal = false → enabled = false →
      s.irqwork = true ∨ ∀ t ∈ s.timerqueue, t = .aie) :
    Inv env (env.rtcAlarmIrqEnable s signal enabled).2 := by
  -- Switched on, the interrupt is on anyway where it counts.
  have harm : ∀ {r : RtcDevice Tm}, Inv env r → Inv env (r.alarmIrqEnable true) := by
    intro r hr
    refine ⟨⟨hr.enabled, hr.nodup, hr.sorted, hr.errs⟩, hr.valid, fun hirq hne => ?_⟩
    obtain ⟨k, ⟨-, htime⟩, hrest⟩ := hr.alarm hirq hne
    exact ⟨k, ⟨rfl, htime⟩, hrest⟩
  have hdisarm : ∀ {r : RtcDevice Tm}, Inv env r → r.irqwork = true ∨ r.timerqueue = [] →
      Inv env (r.alarmIrqEnable false) := by
    intro r hr hnone
    refine ⟨⟨hr.enabled, hr.nodup, hr.sorted, hr.errs⟩, hr.valid, fun hirq hne => ?_⟩
    rcases hnone with hon | hnil
    · exact absurd (hon.symm.trans hirq) (by decide)
    · exact absurd hnil hne
  cases signal with
  | true => exact h
  | false =>
    cases enabled with
    | true =>
      cases haie : (s.timers .aie).enabled with
      | true =>
        simp only [RtcEnv.rtcAlarmIrqEnable, haie, ne_eq, not_true_eq_false, if_false,
          Bool.false_eq_true]
        exact harm h
      | false =>
        have hout : .aie ∉ s.timerqueue := by
          rw [← h.enabled, haie]
          exact nofun
        simp only [RtcEnv.rtcAlarmIrqEnable, haie, ne_eq, Bool.false_eq_true, if_false,
          not_false_eq_true, if_true]
        split
        · exact h.enqueue henv hout
        · exact harm (h.enqueue henv hout)
    | false =>
      have hor := halone rfl rfl
      cases haie : (s.timers .aie).enabled with
      | true =>
        obtain ⟨hinv, hqueue, hirq⟩ := h.remove henv .aie
        simp only [RtcEnv.rtcAlarmIrqEnable, haie, ne_eq, Bool.true_eq_false, not_false_eq_true,
          if_true, if_false, Bool.false_eq_true, not_true_eq_false]
        refine hdisarm hinv
          (hor.imp hirq fun hall => List.eq_nil_iff_forall_not_mem.mpr fun u hu => ?_)
        rw [hqueue, h.nodup.mem_erase_iff] at hu
        exact hu.1 (hall u hu.2)
      | false =>
        simp only [RtcEnv.rtcAlarmIrqEnable, haie, ne_eq, not_true_eq_false, if_false,
          Bool.false_eq_true]
        refine hdisarm h (hor.imp id fun hall => List.eq_nil_iff_forall_not_mem.mpr fun u hu => ?_)
        have hon := (h.enabled u).mpr hu
        rw [hall u hu, haie] at hon
        cases hon

/-! ## Runs -/

/-- `rtc_alarm_irq_enable` is called to disable, and gets `ops_lock`. -/
def RtcEvent.disarms : RtcEvent Tm → Bool
  | .call _ (.alarmIrqEnable false false) => true
  | _ => false

/-- It is called so only when no other timer is on the queue, or the work is pending. -/
def DisarmsAlone (s : RtcDevice Tm) (e : RtcEvent Tm) : Prop :=
  e.disarms = true → s.irqwork = true ∨ ∀ t ∈ s.timerqueue, t = .aie
  deriving Decidable

theorem rtcDeviceInit_inv : Inv env (rtcDeviceInit Tm) :=
  ⟨⟨fun _ => ⟨fun hon => (by cases hon), fun ht => (by cases ht)⟩, List.nodup_nil,
    List.Pairwise.nil, rfl⟩, fun _ ht => (by cases ht), fun _ hne => absurd rfl hne⟩

/-- **One event** keeps the invariant of the queue. -/
theorem rtcStep_inv (henv : env.Lawful) {e : RtcEvent Tm} (h : Inv env s)
    (halone : DisarmsAlone s e) (hstep : env.rtcStep s e = some s') : Inv env s' := by
  cases e with
  | call ticks call =>
    obtain rfl := Option.some_inj.mp hstep
    have hs : Inv env { s with ticks := ticks } :=
      h.of_kept henv ⟨rfl, rfl, rfl, Nat.le_refl _, id⟩ ⟨rfl, rfl⟩
    cases call with
    | setAlarm signal alarm => exact hs.rtcSetAlarm henv signal alarm
    | alarmIrqEnable signal enabled =>
      refine hs.rtcAlarmIrqEnable henv signal enabled fun hsignal henabled => ?_
      subst hsignal henabled
      exact halone rfl
    | updateIrqEnable signal enabled => exact hs.rtcUpdateIrqEnable henv signal enabled
    | timerStart t expires period => exact hs.rtcTimerStart henv t expires period
    | timerCancel t => exact (hs.stop henv t).1
  | doWork ticks rounds =>
    simp only [RtcEnv.rtcStep] at hstep
    have hq : QueueInv { s with irqwork := false, ticks := ticks } :=
      ⟨h.enabled, h.nodup, h.sorted, h.errs⟩
    split at hstep
    · exact hq.doWork henv rounds hstep
    · cases hstep
  | elapse secs =>
    obtain rfl := Option.some_inj.mp hstep
    exact h.of_kept henv ⟨rfl, rfl, rfl, Nat.le_add_right _ _, id⟩ ⟨rfl, rfl⟩
  | updateIrq =>
    obtain rfl := Option.some_inj.mp hstep
    exact ⟨⟨h.enabled, h.nodup, h.sorted, h.errs⟩, h.valid, fun hirq => (by cases hirq)⟩

/-- **The queue and the alarm.**  In every run in which `rtc_alarm_irq_enable` is called to
disable only when no other timer is on the queue or the work is pending, a timer is
enabled just when it is on the queue; and when the work is not pending, the alarm is armed
at the earliest expiry of the queue if that is not due, and otherwise at none that is later
than any expiry that is not due. -/
theorem alarm_queue (henv : env.Lawful) {es : List (RtcEvent Tm)} {s : RtcDevice Tm}
    (halone : Runs.Along env.rtcStep DisarmsAlone (rtcDeviceInit Tm) es)
    (hrun : Runs.exec env.rtcStep (rtcDeviceInit Tm) es = some s) :
    (∀ t, (s.timers t).enabled = true ↔ t ∈ s.timerqueue) ∧
    (s.irqwork = false →
      ∀ t ∈ s.timerqueue, (∀ u ∈ s.timerqueue, s.expires t ≤ s.expires u) →
        (env.now s ≤ s.expires t → ArmedAt env s (s.expires t)) ∧
        (s.expires t < env.now s → ∃ k, ArmedAt env s k ∧
          ∀ u ∈ s.timerqueue, env.now s ≤ s.expires u → k ≤ s.expires u)) := by
  have hinv : Inv env s := Runs.exec_invariant (P := Inv env)
    (fun _ _ _ hs halone hstep => rtcStep_inv henv hs halone hstep) rtcDeviceInit_inv halone hrun
  refine ⟨hinv.enabled, fun hirq t ht hfirst => ?_⟩
  obtain ⟨k, harmed, hleast, hle⟩ := hinv.alarm hirq (List.ne_nil_of_mem ht)
  exact ⟨fun hdue => hleast t ht hfirst hdue ▸ harmed, fun _ => ⟨k, harmed, hle⟩⟩

/-! ### A clock that counts seconds -/

/-- The place of a timer is behind those that do not expire later. -/
def insertByExpiry (expires : TimerId → Ktime) (t : TimerId) : List TimerId → List TimerId
  | [] => [t]
  | u :: q => if expires t < expires u then t :: u :: q else u :: insertByExpiry expires t q

theorem insertByExpiry_perm (expires : TimerId → Ktime) (t : TimerId) (q : List TimerId) :
    (insertByExpiry expires t q).Perm (t :: q) := by
  induction q with
  | nil => exact List.Perm.refl _
  | cons u q ih =>
    rw [insertByExpiry]
    split
    · exact List.Perm.refl _
    · exact (ih.cons u).trans (List.Perm.swap t u q)

theorem insertByExpiry_sorted (expires : TimerId → Ktime) (t : TimerId) (q : List TimerId)
    (h : q.Pairwise fun u v => expires u ≤ expires v) :
    (insertByExpiry expires t q).Pairwise fun u v => expires u ≤ expires v := by
  induction q with
  | nil => exact List.pairwise_singleton _ _
  | cons u q ih =>
    rw [insertByExpiry]
    split
    next hlt =>
      refine List.pairwise_cons.mpr ⟨fun v hv => ?_, h⟩
      rcases List.mem_cons.mp hv with rfl | hv
      · exact Int64.le_of_lt hlt
      · exact Int64.le_trans (Int64.le_of_lt hlt) (List.rel_of_pairwise_cons h hv)
    next hge =>
      refine List.pairwise_cons.mpr ⟨fun v hv => ?_, ih h.of_cons⟩
      rcases List.mem_cons.mp ((insertByExpiry_perm expires t q).mem_iff.mp hv) with rfl | hv
      · exact Int64.not_lt.mp hge
      · exact List.rel_of_pairwise_cons h hv

/-- A 32-bit counter of seconds, with times that are the seconds since 1970. -/
def counterEnv : RtcEnv Int where
  validTm tm := decide (0 ≤ tm)
  tmToTime64 := Int64.ofInt
  time64ToTm := Int64.toInt
  tmToKtime tm := Int64.ofInt (min (tm * 1000000000) 9223372036854775807)
  ktimeToTm k := - (- k.toInt / 1000000000)
  timerqueueAdd := insertByExpiry
  driverReadTime clock := clock
  rangeMin := 0
  rangeMax := 4294967295
  startSecs := 0
  offsetSecs := 0
  setStartTime := false
  uieUnsupported := false

theorem counterEnv_lawful : counterEnv.Lawful := by
  have htoInt : ∀ tm : Int, 0 ≤ tm →
      (counterEnv.tmToKtime tm).toInt = min (tm * 1000000000) 9223372036854775807 := fun tm htm =>
    Int64.toInt_ofInt_of_le (by omega) (by omega)
  refine ⟨fun clock => decide_eq_true (Int.natCast_nonneg clock), fun c c' hle => ?_,
    fun tm k hvalid hle => ?_, insertByExpiry_perm, insertByExpiry_sorted⟩
  · have hc := htoInt c (Int.natCast_nonneg c)
    have hc' := htoInt c' (Int.natCast_nonneg c')
    rw [Int64.le_iff_toInt_le]
    show (counterEnv.tmToKtime c).toInt ≤ (counterEnv.tmToKtime c').toInt
    omega
  · have htm : 0 ≤ tm := of_decide_eq_true hvalid
    have hk := htoInt tm htm
    rw [Int64.le_iff_toInt_le] at hle
    refine decide_eq_true ?_
    show 0 ≤ - (- k.toInt / 1000000000)
    omega

/-- Two timers, the first of which is due when the second is started. -/
def lateStart : List (RtcEvent Int) :=
  [.call [] (.timerStart (.kernel 0) 10000000000 0), .elapse 11,
    .call [] (.timerStart (.kernel 1) 20000000000 0)]

/-- A timer, and the alarm of user space is disabled, which was not set. -/
def disarmed : List (RtcEvent Int) :=
  [.call [] (.timerStart (.kernel 0) 10000000000 0), .call [] (.alarmIrqEnable false false)]

/-- **The alarm is elsewhere** when an entry that is due was skipped, and is off when
`rtc_alarm_irq_enable` was called to disable. -/
theorem alarm_elsewhere :
    (∃ s, Runs.exec counterEnv.rtcStep (rtcDeviceInit Int) lateStart = some s ∧
      s.irqwork = false ∧ s.timerqueue = [.kernel 0, .kernel 1] ∧
      s.expires (.kernel 0) = 10000000000 ∧ s.alarmTime = some 20 ∧
      ¬ ArmedAt counterEnv s (s.expires (.kernel 0))) ∧
    ∃ s, Runs.exec counterEnv.rtcStep (rtcDeviceInit Int) disarmed = some s ∧
      s.irqwork = false ∧ s.timerqueue = [.kernel 0] ∧
      ¬ ArmedAt counterEnv s (s.expires (.kernel 0)) := by
  refine ⟨?_, ?_⟩
  · have hobs : (Runs.exec counterEnv.rtcStep (rtcDeviceInit Int) lateStart).map (fun s =>
        (s.irqwork, s.timerqueue, s.expires (.kernel 0), s.alarmTime)) =
          some (false, [.kernel 0, .kernel 1], 10000000000, some 20) := by decide +kernel
    obtain ⟨s, hrun, hobs⟩ := Option.map_eq_some_iff.mp hobs
    simp only [Prod.mk.injEq] at hobs
    obtain ⟨hirq, hqueue, hexpires, htime⟩ := hobs
    refine ⟨s, hrun, hirq, hqueue, hexpires, htime, fun ⟨_, harmed⟩ => ?_⟩
    rw [htime, hexpires] at harmed
    exact absurd harmed (by decide +kernel)
  · have hobs : (Runs.exec counterEnv.rtcStep (rtcDeviceInit Int) disarmed).map (fun s =>
        (s.irqwork, s.timerqueue, s.alarmEnabled)) = some (false, [.kernel 0], false) := by
      decide +kernel
    obtain ⟨s, hrun, hobs⟩ := Option.map_eq_some_iff.mp hobs
    simp only [Prod.mk.injEq] at hobs
    obtain ⟨hirq, hqueue, hoff⟩ := hobs
    exact ⟨s, hrun, hirq, hqueue, fun ⟨hon, _⟩ => by rw [hoff] at hon; cases hon⟩

/-- The alarm of user space is set and disabled, two timers are started, and the work
expires the first. -/
def firstExpires : List (RtcEvent Int) :=
  [.call [] (.setAlarm false ⟨true, 5⟩), .call [] (.alarmIrqEnable false false),
    .call [] (.timerStart (.kernel 0) 10000000000 0),
    .call [] (.timerStart (.kernel 1) 20000000000 0), .elapse 12, .updateIrq, .doWork [] 3]

theorem alarm_firstExpires : ∃ s,
    Runs.exec counterEnv.rtcStep (rtcDeviceInit Int) firstExpires = some s ∧
      s.fired = [(.kernel 0, 10000000000)] ∧ ArmedAt counterEnv s 20000000000 := by
  have hobs : (Runs.exec counterEnv.rtcStep (rtcDeviceInit Int) firstExpires).map (fun s =>
      (s.irqwork, s.fired, s.timerqueue, s.expires (.kernel 1), counterEnv.now s)) =
        some (false, [(.kernel 0, 10000000000)], [.kernel 1], 20000000000, 12000000000) := by
    decide +kernel
  obtain ⟨s, hrun, hobs⟩ := Option.map_eq_some_iff.mp hobs
  simp only [Prod.mk.injEq] at hobs
  obtain ⟨hirq, hfired, hqueue, hexpires, hnow⟩ := hobs
  have halarm := (alarm_queue counterEnv_lawful (by decide +kernel) hrun).2 hirq (.kernel 1)
  rw [hqueue, hexpires, hnow] at halarm
  refine ⟨s, hrun, hfired, (halarm List.mem_cons_self fun u hu => ?_).1 (by decide)⟩
  rw [List.mem_singleton.mp hu, hexpires]
  exact Int64.le_refl _

end RealtekIpcam.Rtc
