import Mathlib
import RealtekIpcam.Lib.Interrupt

/-!
# The shared interrupt of the 8250 core

`serial8250_interrupt` serves every port on an interrupt line.  It goes round the ring of their
`list` fields and asks each for its interrupt; `end` marks the first port of the present run of idle
ones, and the loop is left when it comes round to that port again.  A counter of the passes over the
head of the ring puts a limit on a line that never falls silent.

A callback may do anything to the world, so that what it answers may depend on all that went before.
After `k` calls the loop is at port `k % n` and has passed the head `k / n` times, and while `end`
is set, the last calls are idle and began at that port.  `polls_until_idle` reads off this that the
loop ends, and that leaving it at `end` means that each port was idle in the last round.
-/

namespace RealtekIpcam.Serial.SharedInterrupt

open Interrupt (IrqReturn)

/-! ## The handler -/

def passLimit : Nat := 512

/-- A ring of `n` ports; the head is port 0. -/
abbrev Port (n : Nat) := Fin n

/-- A call of `handle_irq`: the port, and what it returned. -/
abbrev Call (n : Nat) := Port n × Bool

/-- The loop is left by `break`, or by its condition. -/
inductive Exit where
  | limit | idle
  deriving DecidableEq

/-- The variables of the loop, the world that the callbacks act on, and their calls so far. -/
structure State (n : Nat) (σ : Type) where
  world : σ
  l : Port n
  end_ : Option (Port n)
  passCounter : Nat
  handled : Bool
  calls : List (Call n)

variable {n : Nat} [NeZero n] {σ : Type}

/-- `l->next`. -/
def next (l : Port n) : Port n := ⟨(l.val + 1) % n, Nat.mod_lt _ (Nat.pos_of_neZero n)⟩

/-- The body of the loop, up to its conditions. -/
def poll (handleIrq : Port n → σ → Bool × σ) (s : State n σ) : State n σ :=
  let (pending, world) := handleIrq s.l s.world
  { world := world
    l := next s.l
    end_ := if pending = true then none else some (s.end_.getD s.l)
    passCounter := if next s.l = 0 then s.passCounter + 1 else s.passCounter
    handled := s.handled || pending
    calls := s.calls ++ [(s.l, pending)] }

/-- The body of the loop, and whether it is left. -/
def body (handleIrq : Port n → σ → Bool × σ) (s : State n σ) : State n σ × Option Exit :=
  let t := poll handleIrq s
  if t.l = 0 ∧ passLimit < s.passCounter then (t, some .limit)
  else if t.end_ = some t.l then (t, some .idle)
  else (t, none)

/-- The loop, for at most so many rounds. -/
def loop (handleIrq : Port n → σ → Bool × σ) : Nat → State n σ → Option (State n σ × Exit)
  | 0, _ => none
  | fuel + 1, s =>
    match body handleIrq s with
    | (t, some exit) => some (t, exit)
    | (t, none) => loop handleIrq fuel t

def State.start (w : σ) : State n σ :=
  { world := w, l := 0, end_ := none, passCounter := 0, handled := false, calls := [] }

def irqRetval (handled : Bool) : IrqReturn := if handled = true then .handled else .none

theorem irqRetval_eq_handled {handled : Bool} :
    irqRetval handled = .handled ↔ handled = true := by
  cases handled <;> decide

/-- What a call of the handler did: its calls, how the loop was left, and what it returned. -/
structure Outcome (n : Nat) where
  calls : List (Call n)
  exit : Exit
  ret : IrqReturn

def serial8250Interrupt (handleIrq : Port n → σ → Bool × σ) (w : σ) (fuel : Nat) :
    Option (Outcome n) :=
  (loop handleIrq fuel (State.start w)).map fun r =>
    { calls := r.1.calls, exit := r.2, ret := irqRetval r.1.handled }

/-! ## The round -/

/-- The ports of the first `k` calls. -/
def visited (n : Nat) (k : Nat) : List Nat := (List.range k).map (· % n)

/-- The last `m` calls were idle, and began at the port `e`. -/
structure IdleRun (calls : List (Call n)) (e : Port n) (m : Nat) : Prop where
  pos : 0 < m
  le_ring : m ≤ n
  le_calls : m ≤ calls.length
  began : e.val = (calls.length - m) % n
  idle : ∀ c ∈ calls.drop (calls.length - m), c.2 = false

/-- **What holds after every call.** -/
structure Inv (s : State n σ) : Prop where
  position : s.l.val = s.calls.length % n
  passes : s.passCounter = s.calls.length / n
  ports : s.calls.map (fun c => c.1.val) = visited n s.calls.length
  handled : s.handled = true ↔ ∃ c ∈ s.calls, c.2 = true
  marked : ∀ e, s.end_ = some e → ∃ m, IdleRun s.calls e m

/-- The loop goes on from here. -/
structure Going (s : State n σ) : Prop where
  inv : Inv s
  not_round : s.end_ ≠ some s.l
  below : s.calls.length < (passLimit + 2) * n

omit [NeZero n] in
theorem visited_succ (k : Nat) : visited n (k + 1) = visited n k ++ [k % n] := by
  rw [visited, visited, List.range_succ, List.map_append, List.map_singleton]

theorem next_eq_zero_iff {l : Port n} {k : Nat} (hl : l.val = k % n) :
    next l = 0 ↔ n ∣ k + 1 := by
  rw [Fin.ext_iff, Nat.dvd_iff_mod_eq_zero]
  show (l.val + 1) % n = 0 % n ↔ _
  rw [hl, Nat.mod_add_mod, Nat.zero_mod]

omit [NeZero n] in
theorem IdleRun.first (calls : List (Call n)) {l : Port n} (hl : l.val = calls.length % n) :
    IdleRun (calls ++ [(l, false)]) l 1 where
  pos := Nat.one_pos
  le_ring := Nat.succ_le_of_lt (Nat.zero_lt_of_lt l.isLt)
  le_calls := by simp
  began := by simp [hl]
  idle := by simp

omit [NeZero n] in
theorem IdleRun.more {calls : List (Call n)} {e : Port n} {m : Nat} (h : IdleRun calls e m)
    (hm : m < n) (l : Port n) : IdleRun (calls ++ [(l, false)]) e (m + 1) where
  pos := Nat.succ_pos m
  le_ring := hm
  le_calls := by
    have := h.le_calls
    simp [this]
  began := by
    rw [h.began, List.length_append, List.length_singleton, Nat.add_sub_add_right]
  idle := by
    rw [List.length_append, List.length_singleton, Nat.add_sub_add_right,
      List.drop_append_of_le_length (Nat.sub_le _ _)]
    intro c hc
    rcases List.mem_append.mp hc with hc | hc
    · exact h.idle c hc
    · rw [List.mem_singleton.mp hc]

omit [NeZero n] in
theorem IdleRun.eq_ring_iff {calls : List (Call n)} {e : Port n} {m : Nat}
    (h : IdleRun calls e m) : e.val = calls.length % n ↔ m = n := by
  rw [h.began]
  constructor
  · intro hmod
    have hdvd : n ∣ m := by
      have := (Nat.modEq_iff_dvd' (Nat.sub_le calls.length m)).mp hmod
      rwa [Nat.sub_sub_self h.le_calls] at this
    exact Nat.le_antisymm h.le_ring (Nat.le_of_dvd h.pos hdvd)
  · rintro rfl
    exact (Nat.mod_eq_sub_mod h.le_calls).symm

omit [NeZero n] in
theorem count_last {calls : List (Call n)} (hn : n ≤ calls.length)
    (hports : calls.map (fun c => c.1.val) = visited n calls.length) (p : Port n) :
    ((calls.drop (calls.length - n)).map Prod.fst).count p = 1 := by
  set k := calls.length - n with hk
  have hlen : ((calls.drop k).map Prod.fst).length = n := by
    rw [List.length_map, List.length_drop]
    omega
  have hvals : ((calls.drop k).map Prod.fst).map Fin.val = (List.range' k n).map (· % n) := by
    have hall : calls.length = k + n := by omega
    rw [List.map_map]
    show (calls.drop k).map (fun c => c.1.val) = _
    rw [List.map_drop, hports, visited, ← List.map_drop, hall, List.range_eq_range',
      List.drop_range', Nat.zero_add, Nat.mul_one, Nat.add_sub_cancel_left]
  have hnodup : ((calls.drop k).map Prod.fst).Nodup := by
    refine List.Nodup.of_map Fin.val ?_
    rw [hvals]
    refine List.Nodup.map_on (fun i hi j hj hij => ?_) List.nodup_range'
    rw [List.mem_range'_1] at hi hj
    exact Nat.ModEq.eq_of_abs_lt hij (by rw [abs_lt]; omega)
  have hperm : ((calls.drop k).map Prod.fst).Perm (List.finRange n) := by
    refine (List.Nodup.subperm hnodup fun q _ => List.mem_finRange q).perm_of_length_le ?_
    rw [List.length_finRange, hlen]
  rw [hperm.count_eq]
  exact List.count_eq_one_of_mem (List.nodup_finRange n) (List.mem_finRange p)

variable (handleIrq : Port n → σ → Bool × σ)

theorem length_poll (s : State n σ) :
    (poll handleIrq s).calls.length = s.calls.length + 1 := List.length_append

variable {handleIrq}

/-- One port is polled. -/
theorem Going.poll {s : State n σ} (h : Going s) : Inv (poll handleIrq s) where
  position := by
    rw [length_poll]
    show (s.l.val + 1) % n = _
    rw [h.inv.position, Nat.mod_add_mod]
  passes := by
    rw [length_poll, Nat.succ_div, ← h.inv.passes]
    show (if next s.l = 0 then s.passCounter + 1 else s.passCounter) = _
    rw [if_congr (next_eq_zero_iff h.inv.position) rfl rfl]
    split <;> rfl
  ports := by
    rw [length_poll, visited_succ, ← h.inv.ports, ← h.inv.position]
    exact List.map_append
  handled := by
    show (s.handled || (handleIrq s.l s.world).1) = true ↔
      ∃ c ∈ s.calls ++ [(s.l, (handleIrq s.l s.world).1)], c.2 = true
    rw [Bool.or_eq_true, h.inv.handled]
    simp only [List.mem_append, List.mem_singleton, or_and_right, exists_or, exists_eq_left]
  marked := by
    intro e he
    have he : (if (handleIrq s.l s.world).1 = true then none else some (s.end_.getD s.l)) =
      some e := he
    show ∃ m, IdleRun (s.calls ++ [(s.l, (handleIrq s.l s.world).1)]) e m
    cases hpending : (handleIrq s.l s.world).1 with
    | true =>
      rw [hpending, if_pos rfl] at he
      cases he
    | false =>
      rw [hpending, if_neg Bool.false_ne_true, Option.some_inj] at he
      cases hend : s.end_ with
      | none =>
        rw [hend] at he
        exact ⟨1, he ▸ IdleRun.first s.calls h.inv.position⟩
      | some e' =>
        rw [hend] at he
        obtain rfl : e' = e := he
        obtain ⟨m, hm⟩ := h.inv.marked e' hend
        have hne : m ≠ n := by
          intro hc
          refine h.not_round (hend.trans (congrArg some (Fin.ext ?_)))
          rw [hm.eq_ring_iff.mpr hc, h.inv.position]
        exact ⟨m + 1, hm.more (Nat.lt_of_le_of_ne hm.le_ring hne) s.l⟩

theorem Going.poll_below {s : State n σ} (h : Going s)
    (hlimit : ¬ ((SharedInterrupt.poll handleIrq s).l = 0 ∧ passLimit < s.passCounter)) :
    (SharedInterrupt.poll handleIrq s).calls.length < (passLimit + 2) * n := by
  rw [length_poll]
  refine Nat.lt_of_le_of_ne h.below fun heq => hlimit ?_
  have hdvd : n ∣ s.calls.length + 1 := heq ▸ Nat.dvd_mul_left n _
  have hpasses : s.passCounter + 1 = passLimit + 2 := by
    rw [h.inv.passes, ← Nat.succ_div_of_dvd hdvd, heq,
      Nat.mul_div_cancel _ (Nat.pos_of_neZero n)]
  exact ⟨(next_eq_zero_iff h.inv.position).mpr hdvd, by omega⟩

/-! ## The loop -/

/-- How the loop is left. -/
structure Left (t : State n σ) (exit : Exit) : Prop where
  inv : Inv t
  le : t.calls.length ≤ (passLimit + 2) * n
  idle : exit = .idle → t.end_ = some t.l

/-- **The loop ends**, after no more calls than are left until the limit. -/
theorem Going.loop (handleIrq : Port n → σ → Bool × σ) {s : State n σ} (h : Going s) {fuel : Nat}
    (hfuel : (passLimit + 2) * n ≤ s.calls.length + fuel) :
    ∃ r, loop handleIrq fuel s = some r ∧ Left r.1 r.2 := by
  induction fuel generalizing s with
  | zero => exact absurd hfuel (Nat.not_le.mpr h.below)
  | succ fuel ih =>
    have hlength := length_poll handleIrq s
    have hle : (SharedInterrupt.poll handleIrq s).calls.length ≤ (passLimit + 2) * n :=
      hlength ▸ h.below
    rw [SharedInterrupt.loop, body]
    split_ifs with hlimit hidle
    · exact ⟨_, rfl, h.poll, hle, nofun⟩
    · exact ⟨_, rfl, h.poll, hle, fun _ => hidle⟩
    · exact ih ⟨h.poll, hidle, h.poll_below hlimit⟩ (by omega)

theorem loop_mono {fuel fuel' : Nat} (hle : fuel ≤ fuel') {s : State n σ} {r : State n σ × Exit}
    (h : loop handleIrq fuel s = some r) : loop handleIrq fuel' s = some r := by
  induction fuel generalizing s fuel' with
  | zero => cases h
  | succ fuel ih =>
    obtain ⟨k, rfl⟩ := Nat.exists_eq_add_of_le' hle
    rw [← Nat.add_assoc]
    rw [SharedInterrupt.loop] at h ⊢
    split at h
    · exact h
    · exact ih (Nat.le_add_left fuel k) h

theorem Going.start (w : σ) : Going (State.start w : State n σ) where
  inv :=
    { position := (Nat.zero_mod n).symm
      passes := (Nat.zero_div n).symm
      ports := rfl
      handled := by simp [State.start]
      marked := nofun }
  not_round := nofun
  below := Nat.mul_pos (Nat.succ_pos _) (Nat.pos_of_neZero n)

/-- **The handler ends**, and when it does so before the limit, every port was idle in the last
round. -/
theorem polls_until_idle (n : Nat) [NeZero n] (σ : Type) (handleIrq : Port n → σ → Bool × σ)
    (w : σ) :
    ∃ r : Outcome n,
      (∀ fuel, (passLimit + 3) * n ≤ fuel → serial8250Interrupt handleIrq w fuel = some r) ∧
      r.calls.length ≤ (passLimit + 3) * n ∧
      (r.exit = .idle → ∃ before last, r.calls = before ++ last ∧ last.length = n ∧
        (∀ p, (last.map Prod.fst).count p = 1) ∧ ∀ c ∈ last, c.2 = false) ∧
      (r.ret = .handled ↔ ∃ c ∈ r.calls, c.2 = true) := by
  have hstart : (passLimit + 2) * n ≤
      (State.start w : State n σ).calls.length + (passLimit + 2) * n := Nat.le_add_left _ _
  obtain ⟨⟨t, exit⟩, hloop, hleft⟩ := (Going.start w).loop handleIrq hstart
  have hle : (passLimit + 2) * n ≤ (passLimit + 3) * n := Nat.mul_le_mul_right n (by decide)
  refine ⟨{ calls := t.calls, exit := exit, ret := irqRetval t.handled }, fun fuel hfuel => ?_,
    hleft.le.trans hle, fun hexit => ?_, ?_⟩
  · rw [serial8250Interrupt, loop_mono (hle.trans hfuel) hloop]
    rfl
  · obtain ⟨m, hm⟩ := hleft.inv.marked _ (hleft.idle hexit)
    obtain rfl := hm.eq_ring_iff.mp hleft.inv.position
    exact ⟨_, _, (List.take_append_drop _ _).symm, by
      rw [List.length_drop]
      exact Nat.sub_sub_self hm.le_calls, count_last hm.le_calls hleft.inv.ports, hm.idle⟩
  · rw [← hleft.inv.handled]
    exact irqRetval_eq_handled

/-- The second port has one interrupt. -/
def once (p : Port 2) (w : Bool) : Bool × Bool := (decide (p.val = 1) && w, decide (p.val = 0) && w)

/-- The interrupt is served, and then each port is asked again. -/
theorem polls_once : ∃ r : Outcome 2,
    serial8250Interrupt once true 1030 = some r ∧ r.exit = .idle ∧ r.ret = .handled ∧
      ∃ before last, r.calls = before ++ last ∧ last.length = 2 ∧ ∀ c ∈ last, c.2 = false := by
  obtain ⟨r, hr, -, hidle, -⟩ := polls_until_idle 2 Bool once true
  have hrun : serial8250Interrupt once true 1030 =
      some { calls := [(0, false), (1, true), (0, false), (1, false)], exit := .idle,
             ret := .handled } := rfl
  have heq := hrun.symm.trans (hr 1030 (by decide))
  obtain ⟨before, last, hcalls, hlast, -, hfalse⟩ := hidle (Option.some.inj heq ▸ rfl)
  exact ⟨r, hr 1030 (by decide), Option.some.inj heq ▸ rfl, Option.some.inj heq ▸ rfl, before, last,
    hcalls, hlast, hfalse⟩

end RealtekIpcam.Serial.SharedInterrupt
