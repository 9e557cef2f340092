import RealtekIpcam.Plic.Routing

/-!
# Claiming and completing

A hart that takes an external interrupt reads its claim register until it answers 0.  A source that
is claimed stays silent until its id is written to the complete register of the hart.
`plic_handle_irq` only claims.  The completion is `plic_irq_eoi`, which the flow handler of the
interrupt calls, and a source id that has no interrupt has no flow handler.

What happens to the controller while a claimed interrupt is handled is left open: any number of the
operations of `Plic.Routing`, on this source or on others, before the completion and after it.
Other harts may complete what they have claimed.
-/

namespace RealtekIpcam.Plic

open Runs

variable {n : Nat}

/-- A hart's read of the claim register, with the answer, or its write to the complete
register. -/
inductive Access where
  | claim (hwirq : Nat)
  | complete (hwirq : Nat)
  deriving DecidableEq

/-- A write to the complete register. -/
def Access.isComplete : Access → Bool
  | .claim _ => false
  | .complete _ => true

/-- The `irqdomain` of the controller: the interrupt that `irq_find_mapping` answers for a source
id, and the source id in the `irq_data` of an interrupt. -/
structure IrqDomain where
  findMapping : Nat → Int
  hwirq : Int → Nat
  hwirq_findMapping : ∀ h, 0 < findMapping h → hwirq (findMapping h) = h

/-- An answer of the claim register, and what happens until the next read: the operations before
and after `irq_eoi`, and the CPUs that `plic_irq_eoi` chooses from for a masked source. -/
structure Claimed (n : Nat) where
  hwirq : Nat
  before : List (PlicEvent n)
  online : Cpumask n
  answer : Option (Fin n)
  after : List (PlicEvent n)

namespace Controller

/-- The ids that were written to the complete register of a CPU's context. -/
def completedBy (p : Controller n) (cpu : Fin n) : List Nat :=
  (p.completed.filter fun w => w.1 = (p.handlers cpu).context).map Prod.snd

end Controller

/-- What an operation writes to the complete registers, with the context. -/
def PlicEvent.completions (p : Controller n) : PlicEvent n → List (Nat × Nat)
  | .eoi hwirq thisCpu _ _ => [((p.handlers thisCpu).context, hwirq)]
  | _ => []

/-- The ids that an operation writes to the complete register of a CPU's context. -/
def PlicEvent.completes (p : Controller n) (cpu : Fin n) (e : PlicEvent n) : List Nat :=
  ((e.completions p).filter fun w => w.1 = (p.handlers cpu).context).map Prod.snd

/-- An operation while `cpu` is in the loop: it completes nothing on the context of `cpu`. -/
def otherStep (cpu : Fin n) (s : System n) (e : PlicEvent n) : Option (System n) :=
  if e.completes s.ctl cpu = [] then step s e else none

variable (d : IrqDomain) (cpu : Fin n)

/-- One pass of the loop in `plic_handle_irq` on `cpu`.  `generic_handle_irq` calls the flow
handler, which calls `irq_eoi` once. -/
def handleClaimed (s : System n) (c : Claimed n) : Option (System n) :=
  (exec (otherStep cpu) s c.before).bind fun s =>
    let irq := d.findMapping c.hwirq
    if irq ≤ 0 then some s
    else (step s (.eoi (d.hwirq irq) cpu c.online c.answer)).bind fun s =>
      exec (otherStep cpu) s c.after

/-- `plic_handle_irq` on `cpu`, for the answers of the claim register: the accesses of the hart,
and what the system is afterwards.  It does not end before the register has answered 0. -/
def plicHandleIrq (s : System n) : List (Claimed n) → Option (List Access × System n)
  | [] => none
  | c :: cs =>
    if c.hwirq = 0 then some ([.claim 0], s)
    else (handleClaimed d cpu s c).bind fun t => (plicHandleIrq t cs).map fun rest =>
      (.claim c.hwirq :: ((t.ctl.completedBy cpu).drop (s.ctl.completedBy cpu).length).map
        Access.complete ++ rest.1, rest.2)

/-- The answers of the claim register before it answers 0. -/
def claimedIds (cs : List (Claimed n)) : List Nat :=
  (cs.map Claimed.hwirq).takeWhile (· ≠ 0)

/-- `Paired accesses`: every id that is claimed, other than 0, is completed exactly once before the
next claim. -/
def Paired : List Access → Prop
  | [] => True
  | .complete _ :: rest => Paired rest
  | .claim hwirq :: rest =>
    (hwirq ≠ 0 → (rest.takeWhile Access.isComplete).count (.complete hwirq) = 1) ∧
      Paired rest

/-! ## What an operation completes -/

namespace Controller

variable {p : Controller n} {hwirq : Nat} {enable : Bool}

theorem completed_toggleCpu (cpu : Fin n) :
    (p.toggleCpu hwirq enable cpu).completed = p.completed := by
  unfold toggleCpu
  split
  · cases enable <;> rfl
  · rfl

theorem completed_irqToggle (mask : Cpumask n) :
    (p.irqToggle mask hwirq enable).completed = p.completed := by
  have hfold : ∀ (cpus : List (Fin n)) (q : Controller n),
      (cpus.foldl (toggleCpu hwirq enable) q).completed = q.completed := by
    intro cpus
    induction cpus with
    | nil => exact fun q => rfl
    | cons c cpus ih => exact fun q => (ih _).trans (completed_toggleCpu c)
  exact hfold _ _

/-- **`plic_irq_eoi`** writes the id once, whether the source is masked or not. -/
theorem completed_irqEoi (d : IrqData n) (thisCpu : Fin n) (answer : Option (Fin n)) :
    (p.irqEoi d thisCpu hwirq answer).completed =
      p.completed ++ [((p.handlers thisCpu).context, hwirq)] := by
  unfold irqEoi
  split
  · have hunmask : (p.irqUnmask hwirq answer).completed = p.completed ∧
        (p.irqUnmask hwirq answer).handlers = p.handlers := by
      cases answer with
      | none => exact ⟨rfl, rfl⟩
      | some c => exact ⟨completed_irqToggle _, (sameHandlers_irqToggle ..).handlers⟩
    rw [irqMask, completed_irqToggle]
    simp [complete, writel, hunmask]
  · rfl

end Controller

variable {d cpu} {s t : System n}

/-- What a step writes to the registers that complete interrupts. -/
theorem completed_step {e : PlicEvent n} (hstep : step s e = some t) :
    t.ctl.completed = s.ctl.completed ++ e.completions s.ctl := by
  cases e with
  | mask hwirq =>
    obtain ⟨⟩ := hstep
    exact (Controller.completed_irqToggle _).trans (List.append_nil _).symm
  | unmask hwirq online answer =>
    obtain ⟨-, ⟨⟩⟩ := Option.ite_none_right_eq_some.mp hstep
    cases answer with
    | none => exact (List.append_nil _).symm
    | some c => exact (Controller.completed_irqToggle _).trans (List.append_nil _).symm
  | setAffinity hwirq maskVal force online answer =>
    obtain ⟨-, ⟨⟩⟩ := Option.ite_none_right_eq_some.mp hstep
    cases hcpu : s.ctl.affinityCpu maskVal force answer with
    | none =>
      rw [System.setAffinity_of_none hcpu]
      exact (List.append_nil _).symm
    | some c =>
      rw [System.setAffinity_of_some hcpu]
      exact ((Controller.completed_irqToggle _).trans
        (Controller.completed_irqToggle _)).trans (List.append_nil _).symm
  | eoi hwirq thisCpu online answer =>
    obtain ⟨-, ⟨⟩⟩ := Option.ite_none_right_eq_some.mp hstep
    exact Controller.completed_irqEoi _ _ _
  | coreAffinity hwirq affinity =>
    obtain ⟨⟩ := hstep
    exact (List.append_nil _).symm

/-- **Completions.**  What one operation adds to the completions of a hart. -/
theorem completedBy_step {e : PlicEvent n} (hstep : step s e = some t) :
    t.ctl.completedBy cpu = s.ctl.completedBy cpu ++ e.completes s.ctl cpu := by
  rw [Controller.completedBy, Controller.completedBy, completed_step hstep, handlers_step hstep,
    List.filter_append, List.map_append, PlicEvent.completes]

theorem completedBy_exec {es : List (PlicEvent n)} (hrun : exec (otherStep cpu) s es = some t) :
    t.ctl.completedBy cpu = s.ctl.completedBy cpu := by
  refine exec_invariant (C := fun _ _ => True)
    (P := fun u : System n => u.ctl.completedBy cpu = s.ctl.completedBy cpu) ?_ rfl
    (Along.of_forall fun _ _ => trivial) hrun
  intro u e v hu _ hstep
  obtain ⟨hother, hstep⟩ := Option.ite_none_right_eq_some.mp hstep
  rw [completedBy_step hstep, hother, List.append_nil, hu]

/-! ## One pass, and the loop -/

/-- **One pass of the loop** completes the claimed id once when it has an interrupt, and nothing
otherwise. -/
theorem completedBy_handleClaimed {c : Claimed n} (hpass : handleClaimed d cpu s c = some t) :
    t.ctl.completedBy cpu = s.ctl.completedBy cpu ++
      if 0 < d.findMapping c.hwirq then [c.hwirq] else [] := by
  obtain ⟨u, hbefore, hpass⟩ := Option.bind_eq_some_iff.mp hpass
  rw [← completedBy_exec hbefore]
  by_cases hirq : 0 < d.findMapping c.hwirq
  · rw [if_neg (not_le.mpr hirq), d.hwirq_findMapping _ hirq] at hpass
    obtain ⟨v, heoi, hafter⟩ := Option.bind_eq_some_iff.mp hpass
    rw [completedBy_exec hafter, completedBy_step heoi, if_pos hirq]
    simp [PlicEvent.completes, PlicEvent.completions]
  · rw [if_pos (not_lt.mp hirq)] at hpass
    obtain rfl := Option.some.inj hpass
    rw [if_neg hirq, List.append_nil]

/-- What the hart does for one id. -/
def accessesFor (d : IrqDomain) (hwirq : Nat) : List Access :=
  .claim hwirq :: if 0 < d.findMapping hwirq then [.complete hwirq] else []

/-- **The accesses of a run.**  Each id is claimed, completed if it has an interrupt, and the last
claim answers 0. -/
theorem accesses_plicHandleIrq {cs : List (Claimed n)} {accesses : List Access}
    (hrun : plicHandleIrq d cpu s cs = some (accesses, t)) :
    accesses = (claimedIds cs).flatMap (accessesFor d) ++ [.claim 0] := by
  induction cs generalizing s accesses with
  | nil => cases hrun
  | cons c cs ih =>
    rw [plicHandleIrq] at hrun
    by_cases hzero : c.hwirq = 0
    · rw [if_pos hzero] at hrun
      obtain ⟨⟩ := hrun
      simp [claimedIds, hzero]
    · rw [if_neg hzero] at hrun
      obtain ⟨u, hpass, hrun⟩ := Option.bind_eq_some_iff.mp hrun
      obtain ⟨⟨rest, t'⟩, hrest, heq⟩ := Option.map_eq_some_iff.mp hrun
      obtain ⟨rfl, rfl⟩ := Prod.mk.inj heq
      have hids : claimedIds (c :: cs) = c.hwirq :: claimedIds cs := by
        simp [claimedIds, hzero]
      rw [completedBy_handleClaimed hpass, List.drop_left, ih hrest, hids, List.flatMap_cons,
        accessesFor]
      split <;> rfl

theorem paired_flatMap_iff {hwirqs : List Nat} (hne : ∀ h ∈ hwirqs, h ≠ 0) :
    Paired (hwirqs.flatMap (accessesFor d) ++ [Access.claim 0]) ↔
      ∀ h ∈ hwirqs, 0 < d.findMapping h := by
  induction hwirqs with
  | nil => simp [Paired]
  | cons h hwirqs ih =>
    have hnext : (hwirqs.flatMap (accessesFor d) ++ [Access.claim 0]).takeWhile
        Access.isComplete = [] := by
      cases hwirqs <;> rfl
    have ih := ih fun h' hh' => hne h' (List.mem_cons_of_mem h hh')
    rw [List.flatMap_cons, List.forall_mem_cons, accessesFor, List.append_assoc]
    by_cases hirq : 0 < d.findMapping h
    · have hone : (Access.complete h ::
          (hwirqs.flatMap (accessesFor d) ++ [Access.claim 0])).takeWhile Access.isComplete =
            [Access.complete h] := by
        rw [List.takeWhile_cons_of_pos rfl, hnext]
      rw [if_pos hirq, and_iff_right hirq, ← ih]
      simp [Paired, hone]
    · rw [if_neg hirq]
      simp [Paired, hnext, hne h List.mem_cons_self, hirq]

/-- **Claims and completions.**  A run of `plic_handle_irq` completes every id that it claims
exactly once before the next claim just when every id has an interrupt. -/
theorem paired_iff {cs : List (Claimed n)} {accesses : List Access}
    (hrun : plicHandleIrq d cpu s cs = some (accesses, t)) :
    Paired accesses ↔ ∀ h ∈ claimedIds cs, 0 < d.findMapping h := by
  have hne : ∀ h ∈ claimedIds cs, h ≠ 0 := by
    intro h hh
    have hpos := List.mem_takeWhile_imp hh
    simpa using hpos
  rw [accesses_plicHandleIrq hrun]
  exact paired_flatMap_iff hne

/-- The domain that has interrupts 1 to 64 for the source ids 1 to 64. -/
def directDomain : IrqDomain where
  findMapping h := if h ≤ 64 then h else 0
  hwirq irq := irq.toNat
  hwirq_findMapping h hpos := by
    split at hpos
    · rename_i hle
      rw [if_pos hle, Int.toNat_natCast]
    · exact absurd hpos (lt_irrefl 0)

/-- An id with an operation before the completion. -/
def claimedAfter (hwirq : Nat) (before : List (PlicEvent 2)) : Claimed 2 :=
  ⟨hwirq, before, fun _ => true, some 0, []⟩

/-- Source 33 is masked by its handler and source 34 is not: both ids are completed. -/
theorem paired_iff_masked : ∃ t,
    plicHandleIrq directDomain 0 (boot 40 [some 0, none, some 1])
        [claimedAfter 33 [.unmask 33 (fun _ => true) (some 0), .mask 33],
          claimedAfter 34 [.unmask 34 (fun _ => true) (some 0)], claimedAfter 0 []] =
      some ([.claim 33, .complete 33, .claim 34, .complete 34, .claim 0], t) ∧
    Paired [.claim 33, .complete 33, .claim 34, .complete 34, .claim 0] := by
  have haccesses : (plicHandleIrq directDomain 0 (boot 40 [some (0 : Fin 2), none, some 1])
      [claimedAfter 33 [.unmask 33 (fun _ => true) (some 0), .mask 33],
        claimedAfter 34 [.unmask 34 (fun _ => true) (some 0)], claimedAfter 0 []]).map Prod.fst =
      some [.claim 33, .complete 33, .claim 34, .complete 34, .claim 0] := by
    decide +kernel
  obtain ⟨⟨_, t⟩, hrun, rfl⟩ := Option.map_eq_some_iff.mp haccesses
  exact ⟨t, hrun, (paired_iff hrun).mpr (by decide +kernel)⟩

/-- Source 65 has no interrupt.  Its id is claimed, and never completed. -/
theorem not_paired_unmapped : ∃ t,
    plicHandleIrq directDomain 0 (boot 80 [some (0 : Fin 2), none, some 1])
        [claimedAfter 65 [], claimedAfter 0 []] = some ([.claim 65, .claim 0], t) ∧
    ¬ Paired [.claim 65, .claim 0] := by
  refine ⟨_, rfl, ?_⟩
  simp [Paired, Access.isComplete]

end RealtekIpcam.Plic
