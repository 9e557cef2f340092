import RealtekIpcam.Lib.Expiry
import RealtekIpcam.Lib.Words
import RealtekIpcam.Rtc.AlarmQueue

/-!
# The rounds of the work

`rtc_timer_do_work` goes in rounds: it reads the time, expires what is due, and sets the alarm for
the first entry that is left.  When that is due by then, there is another round.

A timer with a period goes back on the queue as soon as it has expired, in the same round, with its
next expiry.  So a round takes every timer through its expiries one by one, as far as the time that
the round has read, and what is fired comes in the order of expiry, since the next one is always at
the head of the queue.

All of this rests on the next expiry being later than the last.  `ktime_add` does not look: when the
sum is beyond the range of `ktime_t`, the timer is put at the head of the queue with an expiry long
ago.
-/

namespace RealtekIpcam.Rtc

open Function

variable {Tm : Type}

def ktimeMax : Ktime := 9223372036854775807

namespace RtcEnv

variable (env : RtcEnv Tm)

/-- The end of a round: the alarm is set for the first entry.  Whether there is another round. -/
def rearm (s : RtcDevice Tm) : Bool × RtcDevice Tm :=
  match s.timerqueue with
  | [] => (false, s.alarmIrqEnable false)
  | t :: _ =>
    let (err, r) := env.reprogram 3 s ⟨true, env.ktimeToTm (s.expires t)⟩
    if err = 0 then (false, r)
    else if err = - ETIME then (true, r)
    else (true, (r.timerqueueDel t).setEnabled t false)

/-- A round of `rtc_timer_do_work`, from the label `again`: the device behind the loop that expires
timers, and the end of the round. -/
def workRound (n : Nat) (s : RtcDevice Tm) : Option (RtcDevice Tm × Bool × RtcDevice Tm) :=
  let ((_, tm), s) := env.readTime s
  (env.expireTimers (env.tmToKtime tm) n s).map fun s => (s, env.rearm s)

theorem rtcTimerDoWork_succ (n : Nat) (s : RtcDevice Tm) :
    env.rtcTimerDoWork (n + 1) s = (env.workRound (n + 1) s).bind fun (_, again, r) =>
      if again then env.rtcTimerDoWork n r else some r := by
  rw [rtcTimerDoWork, workRound]
  simp only [Option.bind_map]
  refine congrArg _ (funext fun e => ?_)
  simp only [comp_apply, rearm]
  cases e.timerqueue with
  | nil => rfl
  | cons t rest =>
    dsimp only
    split
    · rfl
    · split
      · rfl
      · rfl

/-- What each round fires, with the time that it has read. -/
def rounds : Nat → RtcDevice Tm → List (Ktime × List (TimerId × Ktime))
  | 0, _ => []
  | n + 1, s =>
    match env.workRound (n + 1) s with
    | none => []
    | some (e, again, r) =>
      (env.tmToKtime (env.readTime s).1.2, e.fired.drop s.fired.length) ::
        if again then rounds n r else []

/-- What all rounds fire. -/
def firings (n : Nat) (s : RtcDevice Tm) : List (TimerId × Ktime) :=
  (env.rounds n s).flatMap Prod.snd

end RtcEnv

/-- The expiries with which a timer is in a list of firings. -/
def expiriesOf (t : TimerId) (fs : List (TimerId × Ktime)) : List Int :=
  (fs.filter fun f => f.1 = t).map fun f => f.2.toInt

@[simp] theorem expiriesOf_append (t : TimerId) (fs gs : List (TimerId × Ktime)) :
    expiriesOf t (fs ++ gs) = expiriesOf t fs ++ expiriesOf t gs := by
  rw [expiriesOf, List.filter_append, List.map_append]
  rfl

theorem expiriesOf_singleton (t u : TimerId) (k : Ktime) :
    expiriesOf t [(u, k)] = if u = t then [k.toInt] else [] := by
  by_cases h : u = t
  · simp [expiriesOf, h]
  · simp [expiriesOf, h]

/-! ## One expiry -/

theorem toInt_add_of_le {a b : Ktime} (ha : 0 ≤ b.toInt) (h : a.toInt + b.toInt ≤ ktimeMax.toInt) :
    (a + b).toInt = a.toInt + b.toInt := by
  have hmax : ktimeMax.toInt = 9223372036854775807 := rfl
  have := a.le_toInt
  rw [Int64.toInt_add, Words.bmod_of_fits (by omega) (by omega)]

theorem toInt_add_of_lt {a b : Ktime} (h : ktimeMax.toInt < a.toInt + b.toInt) :
    (a + b).toInt < a.toInt := by
  have hmax : ktimeMax.toInt = 9223372036854775807 := rfl
  have ha := a.toInt_lt
  have hb := b.toInt_lt
  rw [Int64.toInt_add, Int.bmod_def]
  omega

variable {env : RtcEnv Tm} {s₀ s s' : RtcDevice Tm} {t u : TimerId} {now : Ktime} {n : Nat}
  {fs : List (TimerId × Ktime)}

/-- The queue and the flags, whatever the driver is to answer. -/
def QueueOk (s : RtcDevice Tm) : Prop := QueueInv { s with setAlarmErrs := [] }

namespace QueueOk

theorem mk (henabled : ∀ t, (s.timers t).enabled = true ↔ t ∈ s.timerqueue)
    (hnodup : s.timerqueue.Nodup)
    (hsorted : s.timerqueue.Pairwise fun t u => s.expires t ≤ s.expires u) : QueueOk s :=
  ⟨henabled, hnodup, hsorted, rfl⟩

variable (h : QueueOk s)
include h

theorem enabled (t : TimerId) : (s.timers t).enabled = true ↔ t ∈ s.timerqueue :=
  QueueInv.enabled h t

theorem nodup : s.timerqueue.Nodup := h.2

theorem sorted : s.timerqueue.Pairwise fun t u => s.expires t ≤ s.expires u := h.3

theorem of_same (htimers : s'.timers = s.timers) (hqueue : s'.timerqueue = s.timerqueue) :
    QueueOk s' := by
  refine mk (fun t => ?_) (hqueue ▸ h.nodup) ?_
  · rw [htimers, hqueue]
    exact h.enabled t
  · unfold RtcDevice.expires
    rw [htimers, hqueue]
    exact h.sorted

theorem head_le {rest : List TimerId} (hcons : s.timerqueue = t :: rest) (hu : u ∈ s.timerqueue) :
    s.expires t ≤ s.expires u := by
  have hsorted := h.sorted
  rw [hcons] at hu hsorted
  rcases List.mem_cons.mp hu with rfl | hu
  · exact Int64.le_refl _
  · exact List.rel_of_pairwise_cons hsorted hu

theorem expireTimer (henv : env.Lawful) (t : TimerId) : QueueOk (env.expireTimer s t) := by
  have hsame : env.expireTimer { s with setAlarmErrs := [] } t =
      { env.expireTimer s t with setAlarmErrs := [] } := by
    by_cases hp : (((s.timerqueueDel t).setEnabled t false).timers t).period ≠ 0
    · have hs : env.expireTimer s t = env.addTimer _ t := if_pos hp
      have hs' : env.expireTimer { s with setAlarmErrs := [] } t = env.addTimer _ t := if_pos hp
      rw [hs, hs']
      rfl
    · have hs : env.expireTimer s t = _ := if_neg hp
      have hs' : env.expireTimer { s with setAlarmErrs := [] } t = _ := if_neg hp
      rw [hs, hs']
      rfl
  have hq := QueueInv.expireTimer henv h t
  rwa [hsame] at hq

end QueueOk

/-- What a run reads: the clock, the seconds that pass before the next reads, and the answers of the
driver to come. -/
structure Reads where
  clock : Nat
  ticks : List Nat
  errs : List Int

def Reads.next (r : Reads) : Reads :=
  { r with clock := r.clock + r.ticks.headD 0, ticks := r.ticks.tail }

/-- The driver has given its next answer. -/
def Reads.answered (r : Reads) : Reads := { r with errs := r.errs.tail }

def RtcDevice.reads (s : RtcDevice Tm) : Reads := ⟨s.clock, s.ticks, s.setAlarmErrs⟩

/-- The timer, as it is when it has expired. -/
def RtcTimer.expired (x : RtcTimer) : RtcTimer :=
  if x.period ≠ 0 then { x with expires := x.expires + x.period, enabled := true }
  else { x with enabled := false }

/-- What the expiry of one timer does. -/
structure Expires (t : TimerId) (s s' : RtcDevice Tm) : Prop where
  timers : s'.timers = update s.timers t (s.timers t).expired
  queue : s'.timerqueue.Perm
    (if (s.timers t).period ≠ 0 then t :: s.timerqueue.erase t else s.timerqueue.erase t)
  fired : s'.fired = s.fired ++ [(t, s.expires t)]
  reads : s'.reads = s.reads

theorem expireTimer_expires (henv : env.Lawful) (s : RtcDevice Tm) (t : TimerId) :
    Expires t s (env.expireTimer s t) := by
  have hexpires := congrFun (RtcDevice.setEnabled_expires (s.timerqueueDel t) t false) t
  have hself : ((s.timerqueueDel t).setEnabled t false).timers t =
      { s.timers t with enabled := false } := by
    rw [RtcDevice.setEnabled, RtcDevice.setTimer_timers, if_pos rfl]
    rfl
  unfold RtcEnv.expireTimer
  dsimp only
  rw [hself, hexpires]
  split
  next hp =>
    refine ⟨?_, henv.add_perm _ t _ |>.trans ?_, rfl, rfl⟩
    · show update (update s.timers t _) t _ = _
      rw [update_idem, RtcTimer.expired, if_pos hp]
    · rw [if_pos hp]
      rfl
  next hp =>
    refine ⟨?_, ?_, rfl, rfl⟩
    · show update s.timers t _ = _
      rw [RtcTimer.expired, if_neg hp]
      rfl
    · rw [if_neg hp]
      rfl

namespace Expires

variable (h : Expires t s s')
include h

theorem timers_of_ne (hu : u ≠ t) : s'.timers u = s.timers u := by
  rw [h.timers, update_of_ne hu]

theorem timers_self : s'.timers t = (s.timers t).expired := by
  rw [h.timers, update_self]

theorem expires_of_ne (hu : u ≠ t) : s'.expires u = s.expires u := by
  rw [RtcDevice.expires, h.timers_of_ne hu, RtcDevice.expires]

theorem period (u : TimerId) : (s'.timers u).period = (s.timers u).period := by
  by_cases hu : u = t
  · subst hu
    rw [h.timers_self, RtcTimer.expired]
    split
    · rfl
    · rfl
  · rw [h.timers_of_ne hu]

theorem mem (hnodup : s.timerqueue.Nodup) :
    u ∈ s'.timerqueue ↔ u = t ∧ (s.timers t).period ≠ 0 ∨ u ≠ t ∧ u ∈ s.timerqueue := by
  rw [h.queue.mem_iff]
  split
  next hp => rw [List.mem_cons, hnodup.mem_erase_iff, and_iff_left hp]
  next hp => rw [hnodup.mem_erase_iff, iff_false_intro hp, and_false, false_or]

end Expires

/-! ## What has been fired -/

/-- A timer has gone through its first `n` expiries: `e` and `p` are the first and the period, `es`
those with which it was fired, `x` is the next, and `queued` says whether it is on the queue. -/
structure Course (e p : Int) (es : List Int) (queued : Prop) (x : Int) (n : Nat) : Prop where
  fired : es = Expiry.expiries e p n
  next : x = e + n * p
  once : p = 0 → n ≤ 1
  queued : queued ↔ (p = 0 → n = 0)

/-- **The timers of `s₀` have been fired** as in `fs`, and no sum was out of range. -/
structure Fired (s₀ s : RtcDevice Tm) (fs : List (TimerId × Ktime)) : Prop where
  queueOk : QueueOk s
  period : ∀ t, (s.timers t).period = (s₀.timers t).period
  fired : s.fired = s₀.fired ++ fs
  order : fs.Pairwise fun f g => f.2 ≤ g.2
  before : ∀ f ∈ fs, ∀ u ∈ s.timerqueue, f.2 ≤ s.expires u
  outside : ∀ t, t ∉ s₀.timerqueue → t ∉ s.timerqueue ∧ expiriesOf t fs = []
  inside : ∀ t ∈ s₀.timerqueue, ∃ n, Course (s₀.expires t).toInt (s₀.timers t).period.toInt
    (expiriesOf t fs) (t ∈ s.timerqueue) (s.expires t).toInt n

theorem Fired.start (h : QueueOk s) : Fired s s [] where
  queueOk := h
  period _ := rfl
  fired := (List.append_nil _).symm
  order := List.Pairwise.nil
  before _ hf := absurd hf List.not_mem_nil
  outside _ ht := ⟨ht, rfl⟩
  inside t ht := ⟨0, rfl, by simp, fun _ => Nat.zero_le _, iff_of_true ht fun _ => rfl⟩

theorem ktime_eq_zero {k : Ktime} : k = 0 ↔ k.toInt = 0 := by
  rw [← Int64.toInt_inj]
  rfl

/-- The head of the queue fires, and goes back if it is periodic. -/
theorem Fired.step (henv : env.Lawful) (h : Fired s₀ s fs)
    (hperiod : ∀ t ∈ s₀.timerqueue, 0 ≤ (s₀.timers t).period.toInt) {rest : List TimerId}
    (hcons : s.timerqueue = t :: rest)
    (hfits : (s.timers t).period ≠ 0 →
      (s.expires t).toInt + (s.timers t).period.toInt ≤ ktimeMax.toInt) :
    Fired s₀ (env.expireTimer s t) (fs ++ [(t, s.expires t)]) := by
  have hx := expireTimer_expires henv s t
  have hq := h.queueOk.expireTimer henv t
  generalize env.expireTimer s t = s' at hx hq
  have ht : t ∈ s.timerqueue := hcons ▸ List.mem_cons_self
  have ht₀ : t ∈ s₀.timerqueue := by
    by_contra hout
    exact (h.outside t hout).1 ht
  have hzero := ktime_eq_zero (k := (s.timers t).period)
  have hp₀ : 0 ≤ (s.timers t).period.toInt := by
    rw [h.period]
    exact hperiod t ht₀
  have hself : (s'.expires t).toInt = (s.expires t).toInt + (s.timers t).period.toInt := by
    rw [RtcDevice.expires, hx.timers_self, RtcTimer.expired]
    split
    next hp => exact toInt_add_of_le hp₀ (hfits hp)
    next hp => rw [hzero.mp (not_not.mp hp), Int.add_zero, RtcDevice.expires]
  have hlater : ∀ u ∈ s'.timerqueue, s.expires t ≤ s'.expires u := by
    intro u hu
    rcases (hx.mem h.queueOk.nodup).mp hu with ⟨rfl, -⟩ | ⟨hne, hu⟩
    · rw [Int64.le_iff_toInt_le]
      omega
    · rw [hx.expires_of_ne hne]
      exact h.queueOk.head_le hcons hu
  refine ⟨hq, fun u => (hx.period u).trans (h.period u), ?_, ?_, ?_, fun u hu => ?_, fun u hu => ?_⟩
  · rw [hx.fired, h.fired, List.append_assoc]
  · refine List.pairwise_append.mpr ⟨h.order, List.pairwise_singleton _ _, fun f hf g hg => ?_⟩
    rw [List.mem_singleton.mp hg]
    exact h.before f hf t ht
  · intro f hf u hu
    rcases List.mem_append.mp hf with hf | hf
    · exact Int64.le_trans (h.before f hf t ht) (hlater u hu)
    · rw [List.mem_singleton.mp hf]
      exact hlater u hu
  · have hne : u ≠ t := fun hut => hu (hut ▸ ht₀)
    rw [hx.mem h.queueOk.nodup, expiriesOf_append, expiriesOf_singleton, if_neg hne.symm,
      List.append_nil]
    exact ⟨fun hor => hor.elim (fun h => hne h.1) fun hu' => (h.outside u hu).1 hu'.2,
      (h.outside u hu).2⟩
  · obtain ⟨n, hc⟩ := h.inside u hu
    rw [expiriesOf_append, expiriesOf_singleton]
    by_cases hut : u = t
    · subst hut
      refine ⟨n + 1, ?_, ?_, fun hp => ?_, ?_⟩
      · rw [if_pos rfl, hc.fired, hc.next, Expiry.expiries_succ]
      · rw [hself, hc.next, h.period]
        push_cast
        rw [Int.add_mul, Int.one_mul, Int.add_assoc]
      · have := hc.queued.mp ht hp
        omega
      · rw [hx.mem h.queueOk.nodup, Ne, hzero, h.period]
        simp
    · rw [if_neg (Ne.symm hut), List.append_nil, hx.expires_of_ne hut]
      refine ⟨n, hc.fired, hc.next, hc.once, ?_⟩
      rw [hx.mem h.queueOk.nodup, ← hc.queued]
      simp [hut]

/-! ## A round -/

/-- The next expiry of a timer after `now`, as an integer: none for one without a period that is
due. -/
def leftAfter (s : RtcDevice Tm) (now : Ktime) (t : TimerId) : Option Int :=
  Expiry.next (s.expires t).toInt (s.timers t).period.toInt now.toInt

/-- The next expiries are in the range of `ktime_t`. -/
def Fits (s : RtcDevice Tm) (now : Ktime) : Prop :=
  ∀ t ∈ s.timerqueue, ∀ x, leftAfter s now t = some x → x ≤ ktimeMax.toInt

/-- The expiries of the queue up to `now`. -/
def dueCount (now : Ktime) (s : RtcDevice Tm) : Nat :=
  (s.timerqueue.map fun t =>
    Expiry.count (s.expires t).toInt (s.timers t).period.toInt now.toInt).sum

theorem dueCount_lt (h : Expires t s s') (hnodup : s.timerqueue.Nodup) (ht : t ∈ s.timerqueue)
    (hperiod : 0 ≤ (s.timers t).period.toInt) (hdue : s.expires t ≤ now)
    (hself : (s.timers t).period ≠ 0 →
      (s'.expires t).toInt = (s.expires t).toInt + (s.timers t).period.toInt) :
    dueCount now s' < dueCount now s := by
  have hrest : (s.timerqueue.erase t).map (fun u =>
      Expiry.count (s'.expires u).toInt (s'.timers u).period.toInt now.toInt) =
        (s.timerqueue.erase t).map fun u =>
          Expiry.count (s.expires u).toInt (s.timers u).period.toInt now.toInt := by
    refine List.map_congr_left fun u hu => ?_
    rw [h.expires_of_ne (hnodup.mem_erase_iff.mp hu).1, h.period]
  have hle : (s.expires t).toInt ≤ now.toInt := Int64.le_iff_toInt_le.mp hdue
  have hbefore : dueCount now s = _ := ((List.perm_cons_erase ht).map _).sum_nat
  have hafter : dueCount now s' = _ := (h.queue.map _).sum_nat
  rw [hbefore, hafter, List.map_cons, List.sum_cons]
  split
  next hp =>
    have hpos : 0 < (s.timers t).period.toInt :=
      lt_of_le_of_ne hperiod fun h0 => hp (ktime_eq_zero.mpr h0.symm)
    rw [List.map_cons, List.sum_cons, hrest, hself hp, h.period,
      Expiry.count_succ (e := (s.expires t).toInt) hpos hle]
    omega
  next hp =>
    rw [hrest, ktime_eq_zero.mp (not_not.mp hp), Expiry.count_oneShot hle]
    omega

theorem expireTimers_nil (hnil : s.timerqueue = []) : env.expireTimers now (n + 1) s = some s := by
  rw [RtcEnv.expireTimers, hnil]

theorem expireTimers_cons {rest : List TimerId} (hcons : s.timerqueue = t :: rest) :
    env.expireTimers now (n + 1) s =
      if s.expires t > now then some s else env.expireTimers now n (env.expireTimer s t) := by
  rw [RtcEnv.expireTimers, hcons]

theorem expireTimers_mono {m : Nat} (h : env.expireTimers now n s = some s') (hle : n ≤ m) :
    env.expireTimers now m s = some s' := by
  induction n generalizing s m with
  | zero => cases h
  | succ n ih =>
    obtain ⟨m, rfl⟩ : ∃ k, m = k + 1 := ⟨m - 1, by omega⟩
    cases hq : s.timerqueue with
    | nil => rwa [expireTimers_nil hq] at h ⊢
    | cons t rest =>
      rw [expireTimers_cons hq] at h ⊢
      split
      next hlater => rwa [if_pos hlater] at h
      next hlater =>
        rw [if_neg hlater] at h
        exact ih h (by omega)

theorem Fired.step_fits (h : Fired s₀ s fs)
    (hperiod : ∀ t ∈ s₀.timerqueue, 0 ≤ (s₀.timers t).period.toInt) (hfits : Fits s₀ now)
    (ht : t ∈ s.timerqueue) (hdue : s.expires t ≤ now) (hp : (s.timers t).period ≠ 0) :
    (s.expires t).toInt + (s.timers t).period.toInt ≤ ktimeMax.toInt := by
  have ht₀ : t ∈ s₀.timerqueue := by
    by_contra hout
    exact (h.outside t hout).1 ht
  obtain ⟨n, hc⟩ := h.inside t ht₀
  rw [Ne, ktime_eq_zero, h.period] at hp
  have hpos : 0 < (s₀.timers t).period.toInt := lt_of_le_of_ne (hperiod t ht₀) (Ne.symm hp)
  have hlt : n < Expiry.count (s₀.expires t).toInt (s₀.timers t).period.toInt now.toInt := by
    rw [Expiry.lt_count_iff hpos, ← hc.next]
    exact Int64.le_iff_toInt_le.mp hdue
  have hmax := hfits t ht₀ _ (Expiry.next_periodic hp)
  have hmul := Int.mul_le_mul_of_nonneg_right (Int.ofNat_le.mpr hlt) (Int.le_of_lt hpos)
  rw [hc.next, h.period]
  push_cast at hmul
  rw [Int.add_mul, Int.one_mul] at hmul
  omega

/-- **The loop that expires timers** ends with nothing on the queue that is due, and has fired
nothing before its expiry. -/
theorem Fired.loop (henv : env.Lawful)
    (hperiod : ∀ t ∈ s₀.timerqueue, 0 ≤ (s₀.timers t).period.toInt) (hfits : Fits s₀ now) (k : Nat)
    (h : Fired s₀ s fs) (hk : dueCount now s < k) :
    ∃ gs s', (∀ m ≥ k, env.expireTimers now m s = some s') ∧ Fired s₀ s' (fs ++ gs) ∧
      (∀ g ∈ gs, g.2 ≤ now) ∧ (∀ t ∈ s'.timerqueue, now < s'.expires t) ∧ s'.reads = s.reads := by
  induction k generalizing s fs with
  | zero => exact absurd hk (Nat.not_lt_zero _)
  | succ k ih =>
    have hdone : env.expireTimers now (k + 1) s = some s → (∀ t ∈ s.timerqueue, now < s.expires t) →
        ∃ gs s', (∀ m ≥ k + 1, env.expireTimers now m s = some s') ∧ Fired s₀ s' (fs ++ gs) ∧
          (∀ g ∈ gs, g.2 ≤ now) ∧ (∀ t ∈ s'.timerqueue, now < s'.expires t) ∧ s'.reads = s.reads :=
      fun hrun hlater => ⟨[], s, fun m hm => expireTimers_mono hrun hm, by rwa [List.append_nil],
        nofun, hlater, rfl⟩
    cases hq : s.timerqueue with
    | nil =>
      refine hdone (expireTimers_nil hq) fun t ht => ?_
      rw [hq] at ht
      cases ht
    | cons t rest =>
      have ht : t ∈ s.timerqueue := hq ▸ List.mem_cons_self
      by_cases hlater : s.expires t > now
      · refine hdone ((expireTimers_cons hq).trans (if_pos hlater)) fun u hu => ?_
        exact Int64.lt_of_lt_of_le hlater (h.queueOk.head_le hq hu)
      · have hdue : s.expires t ≤ now := Int64.not_lt.mp hlater
        have hstep := h.step_fits hperiod hfits ht hdue
        have hx := expireTimer_expires henv s t
        have ht₀ : t ∈ s₀.timerqueue := by
          by_contra hout
          exact (h.outside t hout).1 ht
        have hp₀ : 0 ≤ (s.timers t).period.toInt := by
          rw [h.period]
          exact hperiod t ht₀
        have hlt := dueCount_lt hx h.queueOk.nodup ht hp₀ hdue fun hp => by
          rw [RtcDevice.expires, hx.timers_self, RtcTimer.expired, if_pos hp]
          exact toInt_add_of_le hp₀ (hstep hp)
        obtain ⟨gs, s', hrun, hfired, hearly, hafter, hreads⟩ :=
          ih (h.step henv hperiod hq hstep) (by omega)
        refine ⟨(t, s.expires t) :: gs, s', fun m hm => ?_, ?_, fun g hg => ?_, hafter,
          hreads.trans hx.reads⟩
        · obtain ⟨m, rfl⟩ : ∃ j, m = j + 1 := ⟨m - 1, by omega⟩
          rw [expireTimers_cons hq, if_neg hlater]
          exact hrun m (by omega)
        · rwa [List.append_assoc] at hfired
        · rcases List.mem_cons.mp hg with rfl | hg
          · exact hdue
          · exact hearly g hg

theorem expireTimers_fired (henv : env.Lawful) (h : env.expireTimers now n s = some s') :
    ∃ gs, s'.fired = s.fired ++ gs := by
  induction n generalizing s with
  | zero => cases h
  | succ n ih =>
    cases hq : s.timerqueue with
    | nil =>
      rw [expireTimers_nil hq] at h
      obtain rfl := Option.some_inj.mp h
      exact ⟨[], (List.append_nil _).symm⟩
    | cons t rest =>
      rw [expireTimers_cons hq] at h
      split at h
      · obtain rfl := Option.some_inj.mp h
        exact ⟨[], (List.append_nil _).symm⟩
      · obtain ⟨gs, hgs⟩ := ih h
        rw [(expireTimer_expires henv s t).fired, List.append_assoc] at hgs
        exact ⟨_, hgs⟩

theorem QueueOk.fires (henv : env.Lawful) (hq : QueueOk s) (ht : t ∈ s.timerqueue)
    (hdue : s.expires t ≤ now) (h : env.expireTimers now n s = some s') :
    ∃ gs, s'.fired = s.fired ++ gs ∧ (t, s.expires t) ∈ gs := by
  induction n generalizing s with
  | zero => cases h
  | succ n ih =>
    cases hcons : s.timerqueue with
    | nil =>
      rw [hcons] at ht
      cases ht
    | cons u rest =>
      have hx := expireTimer_expires henv s u
      rw [expireTimers_cons hcons, if_neg fun hlater => Int64.not_lt.mpr
        (Int64.le_trans (hq.head_le hcons ht) hdue) hlater] at h
      by_cases hut : t = u
      · subst hut
        obtain ⟨gs, hgs⟩ := expireTimers_fired henv h
        rw [hx.fired, List.append_assoc] at hgs
        exact ⟨_, hgs, List.mem_append_left _ (List.mem_singleton_self _)⟩
      · have ht' : t ∈ (env.expireTimer s u).timerqueue := (hx.mem hq.nodup).mpr (.inr ⟨hut, ht⟩)
        have hsame := hx.expires_of_ne hut
        obtain ⟨gs, hgs, hmem⟩ := ih (hq.expireTimer henv u) ht' (hsame ▸ hdue) h
        rw [hx.fired, List.append_assoc] at hgs
        rw [hsame] at hmem
        exact ⟨_, hgs, List.mem_append_right _ hmem⟩

/-- **An expiry out of range** is fired in the wrong order, if the loop ends at all: the timer comes
back with an expiry before the one with which it was fired. -/
theorem Fired.not_fits (henv : env.Lawful)
    (hperiod : ∀ t ∈ s₀.timerqueue, 0 ≤ (s₀.timers t).period.toInt) (hfits : ¬ Fits s₀ now)
    (h : Fired s₀ s fs) (hrun : env.expireTimers now n s = some s') :
    ∃ gs, s'.fired = s.fired ++ gs ∧ ¬ gs.Pairwise fun f g => f.2 ≤ g.2 := by
  induction n generalizing s fs with
  | zero => cases hrun
  | succ n ih =>
    -- The timer that gets out of range is due.
    obtain ⟨v, hv, hdueV⟩ : ∃ v ∈ s.timerqueue, s.expires v ≤ now := by
      simp only [Fits, not_forall, Int.not_le] at hfits
      obtain ⟨v, hv₀, x, hx, hmax⟩ := hfits
      obtain ⟨n, hc⟩ := h.inside v hv₀
      have hlast : (s.expires v).toInt ≤ ktimeMax.toInt :=
        Int.lt_add_one_iff.mp (s.expires v).toInt_lt
      have hfirst : (s₀.expires v).toInt ≤ ktimeMax.toInt :=
        Int.lt_add_one_iff.mp (s₀.expires v).toInt_lt
      by_cases hp : (s₀.timers v).period.toInt = 0
      · unfold leftAfter at hx
        rw [hp] at hx
        by_cases hle : (s₀.expires v).toInt ≤ now.toInt
        · rw [Expiry.next_eq_none.mpr ⟨rfl, hle⟩] at hx
          cases hx
        · rw [Expiry.next_oneShot (Int.not_le.mp hle)] at hx
          obtain rfl := Option.some_inj.mp hx
          omega
      · have hpos := lt_of_le_of_ne (hperiod v hv₀) (Ne.symm hp)
        obtain rfl := Option.some_inj.mp (hx.symm.trans (Expiry.next_periodic hp))
        refine ⟨v, hc.queued.mpr fun h0 => absurd h0 hp, ?_⟩
        rw [Int64.le_iff_toInt_le, hc.next, ← Expiry.lt_count_iff hpos]
        by_contra hge
        have hmul := Int.mul_le_mul_of_nonneg_right
          (Int.ofNat_le.mpr (Nat.not_lt.mp hge)) (Int.le_of_lt hpos)
        rw [hc.next] at hlast
        omega
    cases hcons : s.timerqueue with
    | nil =>
      rw [hcons] at hv
      cases hv
    | cons t rest =>
      have ht : t ∈ s.timerqueue := hcons ▸ List.mem_cons_self
      have hx := expireTimer_expires henv s t
      have hdue : s.expires t ≤ now := Int64.le_trans (h.queueOk.head_le hcons hv) hdueV
      rw [expireTimers_cons hcons, if_neg (Int64.not_lt.mpr hdue)] at hrun
      by_cases hstep : (s.timers t).period ≠ 0 →
          (s.expires t).toInt + (s.timers t).period.toInt ≤ ktimeMax.toInt
      · obtain ⟨gs, hgs, hnot⟩ := ih (h.step henv hperiod hcons hstep) hrun
        rw [hx.fired, List.append_assoc] at hgs
        exact ⟨_, hgs, fun hall => hnot (List.pairwise_append.mp hall).2.1⟩
      · obtain ⟨hp, hover⟩ := Classical.not_imp.mp hstep
        have hback : (env.expireTimer s t).expires t < s.expires t := by
          rw [Int64.lt_iff_toInt_lt, RtcDevice.expires, hx.timers_self, RtcTimer.expired, if_pos hp]
          exact toInt_add_of_lt (Int.not_le.mp hover)
        have ht' : t ∈ (env.expireTimer s t).timerqueue :=
          (hx.mem h.queueOk.nodup).mpr (.inl ⟨rfl, hp⟩)
        obtain ⟨gs, hgs, hmem⟩ := (h.queueOk.expireTimer henv t).fires henv ht'
          (Int64.le_trans (Int64.le_of_lt hback) hdue) hrun
        rw [hx.fired, List.append_assoc] at hgs
        refine ⟨_, hgs, fun hall => ?_⟩
        have := (List.pairwise_append.mp hall).2.2 _ (List.mem_singleton_self _) _ hmem
        exact Int64.not_le.mpr hback this

end RealtekIpcam.Rtc
