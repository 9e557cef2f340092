import RealtekIpcam.Riscv.Entry

/-!
# The context switch

`__switch_to` is called by one task and returns in another: it stores the registers that a call must
keep in the `task_struct` of the one and loads those of the other.  `Away` is what may happen while
a task does not run: code of the other tasks, which leaves what is saved alone, and switches among
them.

A task that is switched to finds its registers as it left them, whoever has run since, and the
processor it runs on in its own `task_struct`.
-/

namespace RealtekIpcam.Riscv

open Function

attribute [local instance] neZero_gprs

/-- `ra`, `sp` and `s0` to `s11`, in the order of the code. -/
def calleeSaved : List Gpr := [1, 2, 8, 9, 18, 19, 20, 21, 22, 23, 24, 25, 26, 27]

/-- The tasks, and where their `task_struct` has the saved registers and the processor. -/
structure Tasks where
  task : List Word
  size : Nat
  threadOffset : Gpr → Nat
  cpuOffset : Nat
  thread_lt : ∀ r, threadOffset r < size
  thread_inj : Function.Injective threadOffset
  cpu_lt : cpuOffset < size
  cpu_ne : ∀ r, threadOffset r ≠ cpuOffset
  size_le : size ≤ 2 ^ 32
  apart : ∀ t ∈ task, ∀ u ∈ task, t ≠ u → size ≤ (t - u).toNat

namespace Tasks

variable (S : Tasks)

def thread (r : Gpr) : Word := BitVec.ofNat 32 (S.threadOffset r)

def cpu : Word := BitVec.ofNat 32 S.cpuOffset

/-- `__switch_to`, with the two tasks in `a0` and `a1`. -/
def switchTo (h : Hart) : Hart :=
  let prev := h.x a0
  let next := h.x 11
  let h := { h with mem := SaveArea.save (prev + S.thread ·) h.x calleeSaved h.mem }
  let h := { h with x := SaveArea.restore (next + S.thread ·) h.mem calleeSaved h.x }
  let h := (h.set 13 (h.mem (prev + S.cpu))).set 14 (h.mem (next + S.cpu))
  let h := (h.store (next + S.cpu) (h.x 13)).store (prev + S.cpu) (h.x 14)
  h.set tp next

/-- The scheduler of the current task calls it. -/
def call (h : Hart) (next : Word) : Hart := (h.set a0 (h.x tp)).set 11 next

/-- Code of the current task. -/
structure Code (h h' : Hart) : Prop where
  tp : h'.x tp = h.x tp
  thread : ∀ t ∈ S.task, ∀ r ∈ calleeSaved, h'.mem (t + S.thread r) = h.mem (t + S.thread r)
  cpu : ∀ t ∈ S.task, h'.mem (t + S.cpu) = h.mem (t + S.cpu)

/-- What happens while `p` does not run. -/
inductive Away (p : Word) : Hart → Hart → Prop where
  | here {h} : Away p h h
  | code {h h' k} : S.Code h h' → Away p h' k → Away p h k
  | switch {h k} (next : Word) : next ∈ S.task → next ≠ p → next ≠ h.x tp →
      Away p (S.switchTo (call h next)) k → Away p h k

variable {S} {h k : Hart} {p next : Word}

/-- Different fields of tasks are in different places. -/
theorem place_inj {t u : Word} (ht : t ∈ S.task) (hu : u ∈ S.task) {x y : Nat} (hx : x < S.size)
    (hy : y < S.size) (heq : t + BitVec.ofNat 32 x = u + BitVec.ofNat 32 y) : t = u ∧ x = y := by
  have hnat := congrArg BitVec.toNat heq
  simp only [BitVec.toNat_add, BitVec.toNat_ofNat] at hnat
  by_cases htu : t = u
  · subst htu
    refine ⟨rfl, ?_⟩
    have hsize : S.size ≤ 2 ^ 32 := S.size_le
    omega
  · have h₁ := S.apart t ht u hu htu
    have h₂ := S.apart u hu t ht (Ne.symm htu)
    rw [BitVec.toNat_sub] at h₁ h₂
    omega

theorem thread_eq {t u : Word} (ht : t ∈ S.task) (hu : u ∈ S.task) {r s : Gpr}
    (heq : t + S.thread r = u + S.thread s) : t = u ∧ r = s :=
  (place_inj ht hu (S.thread_lt r) (S.thread_lt s) heq).imp id fun h => S.thread_inj h

theorem thread_ne_cpu {t u : Word} (ht : t ∈ S.task) (hu : u ∈ S.task) (r : Gpr) :
    t + S.thread r ≠ u + S.cpu :=
  fun heq => S.cpu_ne r (place_inj ht hu (S.thread_lt r) S.cpu_lt heq).2

theorem call_x {r : Gpr} (hr : r ∈ calleeSaved) : (call h next).x r = h.x r := by
  have hr' : r ≠ 11 ∧ r ≠ a0 := by
    revert r
    decide
  exact (update_of_ne hr'.1 ..).trans (update_of_ne hr'.2 ..)

/-- **One switch**: the registers of the task are stored, the other tasks keep theirs, and the
processor goes with the switch. -/
theorem switchTo_mem (hp : h.x tp ∈ S.task) (hnext : next ∈ S.task) (hne : next ≠ h.x tp) :
    (∀ r ∈ calleeSaved, (S.switchTo (call h next)).mem (h.x tp + S.thread r) = h.x r) ∧
      (∀ t ∈ S.task, t ≠ h.x tp → ∀ r ∈ calleeSaved,
        (S.switchTo (call h next)).mem (t + S.thread r) = h.mem (t + S.thread r)) ∧
      (S.switchTo (call h next)).mem (next + S.cpu) = h.mem (h.x tp + S.cpu) := by
  obtain ⟨m, hm⟩ : ∃ m, m = SaveArea.save (h.x tp + S.thread ·) (call h next).x calleeSaved h.mem :=
    ⟨_, rfl⟩
  have hmem : (S.switchTo (call h next)).mem = update (update m (next + S.cpu)
      (m (h.x tp + S.cpu))) (h.x tp + S.cpu) (m (next + S.cpu)) := hm ▸ rfl
  have hthread (t : Word) (ht : t ∈ S.task) (r : Gpr) (hr : r ∈ calleeSaved) :
      (S.switchTo (call h next)).mem (t + S.thread r) = m (t + S.thread r) := by
    rw [hmem, update_of_ne (thread_ne_cpu ht hp r),
      update_of_ne (thread_ne_cpu ht hnext r)]
  refine ⟨fun r hr => ?_, fun t ht htp r hr => ?_, ?_⟩
  · rw [hthread _ hp r hr, hm, SaveArea.save_apply (fun s hs heq => ?_) hr, call_x hr]
    exact (thread_eq hp hp heq).2
  · rw [hthread t ht r hr, hm, SaveArea.save_of_ne fun s hs heq => htp ?_]
    exact (thread_eq hp ht heq).1.symm
  · rw [hmem, update_of_ne fun heq => hne ((BitVec.add_left_inj _).mp heq),
      update_self, hm, SaveArea.save_of_ne fun r _ => thread_ne_cpu hp hp r]

theorem switchTo_x (hp : h.x tp ∈ S.task) (hnext : next ∈ S.task) (hne : next ≠ h.x tp) :
    (S.switchTo (call h next)).x tp = next ∧
      ∀ r ∈ calleeSaved, (S.switchTo (call h next)).x r = h.mem (next + S.thread r) := by
  obtain ⟨v, w, hx⟩ : ∃ v w, (S.switchTo (call h next)).x = update (update
      (update (SaveArea.restore (next + S.thread ·)
        (SaveArea.save (h.x tp + S.thread ·) (call h next).x calleeSaved h.mem) calleeSaved
        (call h next).x) 13 v) 14 w) tp next := ⟨_, _, rfl⟩
  rw [hx]
  refine ⟨update_self .., fun r hr => ?_⟩
  have hr' : r ≠ tp ∧ r ≠ 14 ∧ r ≠ 13 := by
    revert r
    decide
  rw [update_of_ne hr'.1, update_of_ne hr'.2.1, update_of_ne hr'.2.2,
    SaveArea.restore_of_mem hr]
  exact SaveArea.save_of_ne fun s _ heq => hne (thread_eq hp hnext heq).1.symm

/-- **While a task does not run** its registers stay where they are saved, by induction on what
happens; and the task that runs has the processor. -/
theorem Away.kept (haway : S.Away p h k) (hp : p ∈ S.task) (hcur : h.x tp ∈ S.task)
    (hne : h.x tp ≠ p) : k.x tp ∈ S.task ∧ k.x tp ≠ p ∧
      k.mem (k.x tp + S.cpu) = h.mem (h.x tp + S.cpu) ∧
      ∀ r ∈ calleeSaved, k.mem (p + S.thread r) = h.mem (p + S.thread r) := by
  induction haway with
  | here => exact ⟨hcur, hne, rfl, fun _ _ => rfl⟩
  | code hcode _ ih =>
    obtain ⟨htp, hnp, hcpu, hthread⟩ := ih (hcode.tp ▸ hcur) (hcode.tp ▸ hne)
    refine ⟨htp, hnp, ?_, fun r hr => (hthread r hr).trans (hcode.thread p hp r hr)⟩
    rw [hcpu, hcode.tp, hcode.cpu _ hcur]
  | switch next hnext hnp hnc _ ih =>
    obtain ⟨-, hothers, hproc⟩ := switchTo_mem (S := S) hcur hnext hnc
    obtain ⟨htp, hkp, hcpu, hthread⟩ := ih hnext hnp
    exact ⟨htp, hkp, hcpu.trans hproc,
      fun r hr => (hthread r hr).trans (hothers p hp hne.symm r hr)⟩

/-- **A task finds what it left**: it switches away, other tasks run and switch among themselves,
and the switch back gives it its registers and the processor that the last of them ran on. -/
theorem switched_back (hp : h.x tp ∈ S.task) (hnext : next ∈ S.task) (hne : next ≠ h.x tp)
    (haway : S.Away (h.x tp) (S.switchTo (call h next)) k) :
    (S.switchTo (call k (h.x tp))).x tp = h.x tp ∧
      (∀ r ∈ calleeSaved, (S.switchTo (call k (h.x tp))).x r = h.x r) ∧
      (S.switchTo (call k (h.x tp))).mem (h.x tp + S.cpu) = h.mem (h.x tp + S.cpu) := by
  obtain ⟨hsaved, -, hproc⟩ := switchTo_mem (S := S) hp hnext hne
  obtain ⟨htp, hkp, hcpu, hthread⟩ := haway.kept hp hnext hne
  obtain ⟨hself, hregs⟩ := switchTo_x (S := S) htp hp hkp.symm
  refine ⟨hself, fun r hr => (hregs r hr).trans ((hthread r hr).trans (hsaved r hr)), ?_⟩
  rw [(switchTo_mem (S := S) htp hp hkp.symm).2.2, hcpu]
  exact hproc

/-- A task may use all registers but `tp`. -/
theorem code_set (h : Hart) {r : Gpr} (hr : r ≠ Riscv.tp) (v : Word) : S.Code h (h.set r v) :=
  ⟨update_of_ne hr.symm .., fun _ _ _ _ => rfl, fun _ _ => rfl⟩

end Tasks

def threeTasks : Tasks where
  task := [0x1000, 0x2000, 0x3000]
  size := 0x1000
  threadOffset r := 4 * r
  cpuOffset := 0x800
  thread_lt r := by omega
  thread_inj r s h := Fin.ext (Nat.eq_of_mul_eq_mul_left (by decide) h)
  cpu_lt := by decide
  cpu_ne r := by omega
  size_le := by decide
  apart := by
    simp only [List.mem_cons, List.not_mem_nil, or_false]
    rintro t (rfl | rfl | rfl) u (rfl | rfl | rfl) h <;> first | exact absurd rfl h | decide

def firstTask : Hart where
  x r := if r = tp then 0x1000 else r.val
  pc := 0
  user := false
  status := 0
  epc := 0
  cause := 0
  tval := 0
  scratch := 0
  mem _ := 0

/-- The second task has been switched to and has changed `s1`. -/
def secondTask : Hart := (threeTasks.switchTo (Tasks.call firstTask 0x2000)).set s1 77

/-- The third task has been switched to in turn and has changed `s1` as well. -/
def thirdTask : Hart := (threeTasks.switchTo (Tasks.call secondTask 0x3000)).set s1 78

/-- The third task switches back to the first. -/
theorem switched_back_threeTasks :
    (threeTasks.switchTo (Tasks.call thirdTask 0x1000)).x s1 = 9 := by
  have htp : secondTask.x tp = 0x2000 := rfl
  have haway : threeTasks.Away (firstTask.x tp)
      (threeTasks.switchTo (Tasks.call firstTask 0x2000)) thirdTask :=
    .code (Tasks.code_set _ (by decide) 77) <|
      .switch (h := secondTask) 0x3000 (by decide) (by decide) (htp ▸ by decide) <|
        .code (Tasks.code_set _ (by decide) 78) .here
  exact (Tasks.switched_back (S := threeTasks) (h := firstTask) (by decide) (by decide) (by decide)
    haway).2.1 s1 (by decide)

end RealtekIpcam.Riscv
