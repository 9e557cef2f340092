import RealtekIpcam.Lib.Runs
import RealtekIpcam.Plic.Model

/-!
# Routing of interrupt sources

What the driver keeps in two kinds of registers, 32 sources to a word and a row of words for each
CPU, is a partial function from sources to CPUs.  `Represents` says so: the enable bit of
a source is set in the context of the CPU that it is routed to and in no other, and its priority is
1 if it is routed and 0 if not.  Each operation changes the function at its own source,
whatever CPUs are online when it runs.

The driver does not look whether a register is inside the map.  With a ninth context, the enable
bits of its CPU are the priorities of other sources, `not_enabled_unique`.
-/

namespace RealtekIpcam.Plic

open Function

open Runs (exec)

variable {n : Nat}

namespace Controller

/-- The enable bit of a source in the context of a CPU. -/
def enabled (p : Controller n) (cpu : Fin n) (hwirq : Nat) : Bool :=
  (p.readl (.enable (p.handlers cpu).context (hwirq / 32))).getLsbD (hwirq % 32)

/-- The priority register of a source. -/
def priority (p : Controller n) (hwirq : Nat) : BitVec 32 := p.readl (.priority hwirq)

/-- `lmask` is the set of CPUs with a handler, and each of them has a context of its own, inside the
map. -/
structure WellFormed (p : Controller n) : Prop where
  lmask : ∀ cpu, p.lmask cpu = (p.handlers cpu).present
  context_inj : ∀ cpu cpu', (p.handlers cpu).present = true → (p.handlers cpu').present = true →
    (p.handlers cpu).context = (p.handlers cpu').context → cpu = cpu'
  context_lt : ∀ cpu, (p.handlers cpu).context < 8

/-- Nothing but the registers and the completions differs. -/
structure SameHandlers (p q : Controller n) : Prop where
  lmask : q.lmask = p.lmask
  handlers : q.handlers = p.handlers

variable {p q r : Controller n} {cpu cpu' : Fin n} {hwirq h : Nat} {enable : Bool}

theorem SameHandlers.trans (hpq : SameHandlers p q) (hqr : SameHandlers q r) :
    SameHandlers p r :=
  ⟨hqr.lmask.trans hpq.lmask, hqr.handlers.trans hpq.handlers⟩

theorem WellFormed.of_sameHandlers (hp : p.WellFormed) (hq : SameHandlers p q) : q.WellFormed := by
  refine ⟨fun cpu => ?_, fun cpu cpu' => ?_, fun cpu => ?_⟩
  · rw [hq.lmask, hq.handlers]
    exact hp.lmask cpu
  · rw [hq.handlers]
    exact hp.context_inj cpu cpu'
  · rw [hq.handlers]
    exact hp.context_lt cpu

/-- Inside the map, a write changes one register. -/
theorem readl_writel {q r : PlicReg} (hq : q.InMap) (hr : r.InMap) (value : BitVec 32) :
    (p.writel value r).readl q = if q = r then value else p.readl q := by
  unfold readl writel
  split
  · next heq =>
    rw [heq]
    exact update_self _ _ _
  · next hne => exact update_of_ne (fun h => hne (PlicReg.offset_injOn hq hr h)) _ _

/-! ## Toggling -/

theorem sameHandlers_toggle (handler : Handler) (hwirq : Nat) (enable : Bool) :
    SameHandlers p (p.toggle handler hwirq enable) := by
  cases enable <;> exact ⟨rfl, rfl⟩

theorem sameHandlers_toggleCpu (hwirq : Nat) (enable : Bool) (cpu : Fin n) :
    SameHandlers p (p.toggleCpu hwirq enable cpu) := by
  unfold toggleCpu
  split
  · exact sameHandlers_toggle _ _ _
  · exact ⟨rfl, rfl⟩

theorem inMap_enable {context : Nat} (hctx : context < 8) (hh : h < 1280) :
    (PlicReg.enable context (h / 32)).InMap := ⟨hctx, by omega⟩

theorem readl_toggle_of_ne {handler : Handler} (hctx : handler.context < 8) (hq : hwirq < 1280)
    {reg : PlicReg} (hin : reg.InMap) (hreg : reg ≠ .enable handler.context (hwirq / 32)) :
    (p.toggle handler hwirq enable).readl reg = p.readl reg := by
  cases enable <;> exact (readl_writel hin (inMap_enable hctx hq) _).trans (if_neg hreg)

/-- **`plic_toggle`** writes one bit: that of its source in its context. -/
theorem getLsbD_toggle {handler : Handler} (hctx : handler.context < 8) (hq : hwirq < 1280)
    {context : Nat} (hcontext : context < 8) (hh : h < 1280) :
    ((p.toggle handler hwirq enable).readl (.enable context (h / 32))).getLsbD (h % 32) =
      if context = handler.context ∧ h = hwirq then enable
      else (p.readl (.enable context (h / 32))).getLsbD (h % 32) := by
  by_cases hreg : PlicReg.enable context (h / 32) = .enable handler.context (hwirq / 32)
  · obtain ⟨rfl, hword⟩ := PlicReg.enable.inj hreg
    have hbit : h = hwirq ↔ h % 32 = hwirq % 32 := by omega
    have hlt : h % 32 < 32 := Nat.mod_lt h (by decide)
    rw [hword]
    simp only [true_and, hbit]
    cases enable with
    | true =>
      unfold toggle
      simp only [if_true, readl, writel, update_self]
      exact BitField.getLsbD_setBit hlt
    | false =>
      unfold toggle
      simp only [Bool.false_eq_true, if_false, readl, writel, update_self]
      exact BitField.getLsbD_clearBit hlt
  · rw [readl_toggle_of_ne hctx hq (inMap_enable hcontext hh) hreg, if_neg]
    rintro ⟨rfl, rfl⟩
    exact hreg rfl

theorem enabled_toggleCpu (hp : p.WellFormed) (hq : hwirq < 1280) (hh : h < 1280)
    (hcpu : (p.handlers cpu).present = true) :
    (p.toggleCpu hwirq enable cpu').enabled cpu h =
      if cpu = cpu' ∧ h = hwirq then enable else p.enabled cpu h := by
  unfold toggleCpu
  by_cases hpres : (p.handlers cpu').present = true
  · have hcond : ((p.handlers cpu').present && p.lmask cpu') = true := by
      rw [hp.lmask, hpres]
      rfl
    have hctx : (p.handlers cpu).context = (p.handlers cpu').context ↔ cpu = cpu' :=
      ⟨hp.context_inj cpu cpu' hcpu hpres, fun heq => heq ▸ rfl⟩
    rw [if_pos hcond, enabled, (sameHandlers_toggle _ _ _).handlers,
      getLsbD_toggle (hp.context_lt cpu') hq (hp.context_lt cpu) hh]
    simp only [hctx, enabled]
  · have hcond : ¬ ((p.handlers cpu').present && p.lmask cpu') = true := by
      rw [Bool.and_eq_true]
      exact fun hc => hpres hc.1
    rw [if_neg hcond, if_neg]
    rintro ⟨rfl, -⟩
    exact hpres hcpu

theorem sameHandlers_foldl (hwirq : Nat) (enable : Bool) (cpus : List (Fin n)) :
    SameHandlers p (cpus.foldl (toggleCpu hwirq enable) p) := by
  induction cpus generalizing p with
  | nil => exact ⟨rfl, rfl⟩
  | cons c cpus ih => exact (sameHandlers_toggleCpu hwirq enable c).trans ih

theorem enabled_foldl (hp : p.WellFormed) (hq : hwirq < 1280) (hh : h < 1280)
    (hcpu : (p.handlers cpu).present = true) (cpus : List (Fin n)) :
    (cpus.foldl (toggleCpu hwirq enable) p).enabled cpu h =
      if cpu ∈ cpus ∧ h = hwirq then enable else p.enabled cpu h := by
  induction cpus generalizing p with
  | nil => simp
  | cons c cpus ih =>
    have hsame := sameHandlers_toggleCpu (p := p) hwirq enable c
    rw [List.foldl_cons, ih (hp.of_sameHandlers hsame) (hsame.handlers ▸ hcpu),
      enabled_toggleCpu hp hq hh hcpu]
    by_cases heq : h = hwirq
    · by_cases hmem : cpu ∈ cpus
      · simp [heq, hmem]
      · simp [heq, hmem]
    · simp [heq]

theorem priority_foldl (hp : p.WellFormed) (hq : hwirq < 1280) (cpus : List (Fin n)) :
    (cpus.foldl (toggleCpu hwirq enable) p).priority h = p.priority h := by
  induction cpus generalizing p with
  | nil => rfl
  | cons c cpus ih =>
    rw [List.foldl_cons, ih (hp.of_sameHandlers (sameHandlers_toggleCpu hwirq enable c))]
    unfold toggleCpu
    split
    · exact readl_toggle_of_ne (hp.context_lt c) hq trivial (by simp)
    · rfl

theorem sameHandlers_irqToggle (mask : Cpumask n) (hwirq : Nat) (enable : Bool) :
    SameHandlers p (p.irqToggle mask hwirq enable) :=
  SameHandlers.trans (q := p.writel (if enable then 1 else 0) (.priority hwirq)) ⟨rfl, rfl⟩
    (sameHandlers_foldl hwirq enable _)

/-- **`plic_irq_toggle`** writes the enable bit of the source for the CPUs of the mask. -/
theorem enabled_irqToggle (hp : p.WellFormed) (hq : hwirq < 1280) (hh : h < 1280)
    (hcpu : (p.handlers cpu).present = true) (mask : Cpumask n) :
    (p.irqToggle mask hwirq enable).enabled cpu h =
      if mask cpu = true ∧ h = hwirq then enable else p.enabled cpu h := by
  have hw : (p.writel (if enable then 1 else 0) (.priority hwirq)).WellFormed :=
    hp.of_sameHandlers ⟨rfl, rfl⟩
  have hkeep : (p.writel (if enable then 1 else 0) (.priority hwirq)).enabled cpu h =
      p.enabled cpu h :=
    congrArg (BitVec.getLsbD · _) <|
      (readl_writel (r := .priority hwirq) (inMap_enable (hp.context_lt cpu) hh) trivial _).trans
        (if_neg (by simp))
  unfold irqToggle
  rw [enabled_foldl hw hq hh hcpu, hkeep]
  simp only [List.mem_filter, List.mem_finRange, true_and]

theorem priority_irqToggle (hp : p.WellFormed) (hq : hwirq < 1280) (mask : Cpumask n) :
    (p.irqToggle mask hwirq enable).priority h =
      if h = hwirq then (if enable then 1 else 0) else p.priority h := by
  have hw : (p.writel (if enable then 1 else 0) (.priority hwirq)).WellFormed :=
    hp.of_sameHandlers ⟨rfl, rfl⟩
  have hread := readl_writel (p := p) (q := .priority h) (r := .priority hwirq) trivial trivial
    (if enable then 1 else 0)
  simp only [PlicReg.priority.injEq] at hread
  exact (priority_foldl hw hq _).trans hread

end Controller

/-! ## The routing function -/

/-- The CPU that a source is routed to. -/
abbrev Routes (n : Nat) := Nat → Option (Fin n)

/-- The registers hold the routing function, for the sources of the map. -/
structure Represents (p : Controller n) (route : Routes n) : Prop where
  wellFormed : p.WellFormed
  enabled : ∀ cpu h, h < 1280 → (p.handlers cpu).present = true →
    p.enabled cpu h = decide (route h = some cpu)
  priority : ∀ h, p.priority h = if (route h).isSome then 1 else 0
  present : ∀ h cpu, route h = some cpu → (p.handlers cpu).present = true

namespace Represents

open Controller

variable {p : Controller n} {route : Routes n} {hwirq : Nat} {cpu : Fin n}

theorem present_update (hp : Represents p route) {r : Option (Fin n)}
    (hr : ∀ cpu, r = some cpu → (p.handlers cpu).present = true) (h : Nat)
    (hc : update route hwirq r h = some cpu) : (p.handlers cpu).present = true := by
  by_cases hh : h = hwirq
  · rw [hh, update_self] at hc
    exact hr cpu hc
  · rw [update_of_ne hh] at hc
    exact hp.present h cpu hc

theorem irqToggle_of (hp : Represents p route) (hq : hwirq < 1280) (hnone : route hwirq = none)
    (hcpu : p.lmask cpu = true) (enable : Bool) :
    Represents (p.irqToggle (Cpumask.of cpu) hwirq enable)
      (update route hwirq (if enable then some cpu else none)) := by
  have hsame := sameHandlers_irqToggle (p := p) (Cpumask.of cpu) hwirq enable
  refine ⟨hp.wellFormed.of_sameHandlers hsame, fun c h hh hc => ?_, fun h => ?_, fun h c hc => ?_⟩
  · rw [hsame.handlers] at hc
    rw [enabled_irqToggle hp.wellFormed hq hh hc, hp.enabled c h hh hc, Cpumask.of]
    by_cases hh : h = hwirq
    · subst hh
      cases enable <;> simp [hnone, eq_comm]
    · simp [hh]
  · rw [priority_irqToggle hp.wellFormed hq, hp.priority]
    by_cases hh : h = hwirq
    · subst hh
      cases enable <;> simp
    · simp [hh]
  · rw [hsame.handlers]
    refine hp.present_update (fun c' hc' => ?_) h hc
    cases enable with
    | false => cases hc'
    | true =>
      obtain rfl := Option.some.inj hc'
      exact hp.wellFormed.lmask cpu ▸ hcpu

theorem irqMask (hp : Represents p route) (hq : hwirq < 1280) :
    Represents (p.irqMask hwirq) (update route hwirq none) := by
  have hsame := sameHandlers_irqToggle (p := p) p.lmask hwirq false
  refine ⟨hp.wellFormed.of_sameHandlers hsame, fun c h hh hc => ?_, fun h => ?_, fun h c hc => ?_⟩
  · rw [Controller.irqMask, hsame.handlers] at hc
    rw [Controller.irqMask, enabled_irqToggle hp.wellFormed hq hh hc, hp.enabled c h hh hc,
      hp.wellFormed.lmask, hc]
    by_cases heq : h = hwirq <;> simp [heq]
  · rw [Controller.irqMask, priority_irqToggle hp.wellFormed hq, hp.priority]
    by_cases hh : h = hwirq <;> simp [hh]
  · rw [Controller.irqMask, hsame.handlers]
    refine hp.present_update (fun c' hc' => ?_) h hc
    cases hc'

/-- **`plic_irq_unmask`** routes a source that is not routed to the CPU that was chosen. -/
theorem irqUnmask (hp : Represents p route) (hq : hwirq < 1280) (hnone : route hwirq = none)
    {answer : Option (Fin n)} (hanswer : ∀ cpu ∈ answer, p.lmask cpu = true) :
    Represents (p.irqUnmask hwirq answer) (update route hwirq answer) := by
  cases answer with
  | none =>
    have hsame : update route hwirq none = route := by
      rw [← hnone, update_eq_self]
    rw [hsame]
    exact hp
  | some cpu => exact hp.irqToggle_of hq hnone (hanswer cpu rfl) true

theorem complete (hp : Represents p route) (cpu : Fin n) (hwirq : Nat) :
    Represents (p.complete cpu hwirq) route := by
  have hread : ∀ reg : PlicReg, reg.InMap → reg ≠ .complete (p.handlers cpu).context →
      (p.complete cpu hwirq).readl reg = p.readl reg := fun reg hin hreg =>
    (readl_writel (r := .complete _) hin (hp.wellFormed.context_lt cpu) _).trans (if_neg hreg)
  refine ⟨hp.wellFormed.of_sameHandlers ⟨rfl, rfl⟩, fun c h hh hc => ?_, fun h => ?_, hp.present⟩
  · rw [← hp.enabled c h hh hc]
    exact congrArg (BitVec.getLsbD · _)
      (hread _ (inMap_enable (hp.wellFormed.context_lt c) hh) (by simp))
  · rw [← hp.priority h]
    exact hread _ trivial (by simp)

/-- **`plic_irq_eoi`** leaves the routes as they are: a masked source is routed for the
completion only. -/
theorem irqEoi (hp : Represents p route) (hq : hwirq < 1280) {d : IrqData n}
    (hmasked : d.masked = true → route hwirq = none) (thisCpu : Fin n)
    {answer : Option (Fin n)} (hanswer : ∀ cpu ∈ answer, p.lmask cpu = true) :
    Represents (p.irqEoi d thisCpu hwirq answer) route := by
  unfold Controller.irqEoi
  split
  next hm =>
    have hnone := hmasked hm
    have h := ((hp.irqUnmask hq hnone hanswer).complete thisCpu hwirq).irqMask hq
    rwa [update_idem, ← hnone, update_eq_self] at h
  next => exact hp.complete thisCpu hwirq

end Represents

/-! ## The system -/

/-- The controller with the interrupt core's data of the sources.  `route` is not in the
program: it is the CPU that was found when the source was last unmasked or moved, `none`
once it is masked. -/
structure System (n : Nat) where
  ctl : Controller n
  irqs : Nat → IrqData n
  route : Routes n

/-- An operation on a source, with what CPUs are online and the answer of
`cpumask_any_and`.  `coreAffinity` is the core writing the affinity mask. -/
inductive PlicEvent (n : Nat) where
  | mask (hwirq : Nat)
  | unmask (hwirq : Nat) (online : Cpumask n) (answer : Option (Fin n))
  | setAffinity (hwirq : Nat) (maskVal : Cpumask n) (force : Bool) (online : Cpumask n)
    (answer : Option (Fin n))
  | eoi (hwirq : Nat) (thisCpu : Fin n) (online : Cpumask n) (answer : Option (Fin n))
  | coreAffinity (hwirq : Nat) (affinity : Cpumask n)

/-- The source of an operation. -/
def PlicEvent.hwirq : PlicEvent n → Nat
  | .mask hwirq | .unmask hwirq _ _ | .setAffinity hwirq _ _ _ _ | .eoi hwirq _ _ _ |
    .coreAffinity hwirq _ => hwirq

namespace System

variable (s : System n)

/-- What `plic_irq_unmask` may get from `cpumask_any_and`. -/
def UnmaskAnswer (hwirq : Nat) (online : Cpumask n) (answer : Option (Fin n)) : Prop :=
  Cpumask.IsAnyAnd (s.irqs hwirq).affinity (s.ctl.lmask.and online) answer
  deriving Decidable

def setMasked (hwirq : Nat) (masked : Bool) : System n :=
  { s with irqs := update s.irqs hwirq { s.irqs hwirq with masked := masked } }

/-- The core's `irq_do_set_affinity`: it keeps the mask when the chip accepts it. -/
def setAffinity (hwirq : Nat) (maskVal : Cpumask n) (force : Bool) (answer : Option (Fin n)) :
    System n :=
  let (ret, ctl, d) := s.ctl.setAffinity (s.irqs hwirq) hwirq maskVal force answer
  if ret = 0 then
    { ctl := ctl
      irqs := update s.irqs hwirq { d with affinity := maskVal }
      route := update s.route hwirq
        (if d.masked then none else s.ctl.affinityCpu maskVal force answer) }
  else s

end System

/-- The operations.  The core unmasks a source only while it is masked. -/
def step (s : System n) : PlicEvent n → Option (System n)
  | .mask hwirq =>
    some ({ s with
      ctl := s.ctl.irqMask hwirq
      route := update s.route hwirq none }.setMasked hwirq true)
  | .unmask hwirq online answer =>
    if (s.irqs hwirq).masked = true ∧ s.UnmaskAnswer hwirq online answer then
      some ({ s with
        ctl := s.ctl.irqUnmask hwirq answer
        route := update s.route hwirq answer }.setMasked hwirq false)
    else none
  | .setAffinity hwirq maskVal force online answer =>
    if Cpumask.IsAnyAnd (s.ctl.lmask.and maskVal) online answer then
      some (s.setAffinity hwirq maskVal force answer)
    else none
  | .eoi hwirq thisCpu online answer =>
    if s.UnmaskAnswer hwirq online answer then
      some { s with ctl := s.ctl.irqEoi (s.irqs hwirq) thisCpu hwirq answer }
    else none
  | .coreAffinity hwirq affinity =>
    some { s with
      irqs := update s.irqs hwirq { s.irqs hwirq with affinity := affinity } }

/-- After `plic_init`, with every source masked. -/
def boot (nrIrqs : Nat) (contexts : List (Option (Fin n))) : System n where
  ctl := plicInit nrIrqs contexts
  irqs := fun _ => ⟨true, fun _ => true, fun _ => false⟩
  route := fun _ => none

/-! ## After `plic_init` -/

namespace Controller

/-- The controller after the contexts below `i`: nothing is enabled, and no handler has a
context that is still to come. -/
structure Initial (p : Controller n) (i : Nat) : Prop where
  wellFormed : p.WellFormed
  context_lt : ∀ cpu, (p.handlers cpu).present = true → (p.handlers cpu).context < i
  enable : ∀ context word, (PlicReg.enable context word).InMap →
    p.readl (.enable context word) = 0
  priority : ∀ hwirq, p.readl (.priority hwirq) = 0

variable {p : Controller n} {i : Nat}

theorem initial_afterReset (n : Nat) : (afterReset n).Initial 0 where
  wellFormed := ⟨fun _ => rfl, nofun, fun _ => Nat.zero_lt_succ 7⟩
  context_lt _ h := Bool.noConfusion h
  enable _ _ _ := rfl
  priority _ := rfl

theorem Initial.toggle (hp : p.Initial i) {handler : Handler} (hctx : handler.context < 8)
    {hwirq : Nat} (hq : hwirq < 1280) : (p.toggle handler hwirq false).Initial i := by
  have hregs : (p.toggle handler hwirq false).regs = p.regs := by
    refine update_eq_iff.mpr ⟨?_, fun _ _ => rfl⟩
    have hzero := hp.enable _ _ (inMap_enable hctx hq)
    exact (congrArg (BitField.clearBit · _) hzero).trans <|
      (BitField.clearBit_zero _).trans hzero.symm
  refine ⟨hp.wellFormed.of_sameHandlers ⟨rfl, rfl⟩, hp.context_lt, ?_, ?_⟩
  · intro context word
    rw [readl, hregs]
    exact hp.enable context word
  · intro hwirq
    rw [readl, hregs]
    exact hp.priority hwirq

/-- A handler gets a context of its own. -/
theorem Initial.addHandler (hp : p.Initial i) (hi : i < 8) (cpu : Fin n) :
    (p.addHandler i cpu).Initial (i + 1) := by
  unfold Controller.addHandler
  split
  · have hread : ∀ reg : PlicReg, reg.InMap → reg ≠ .threshold (p.handlers cpu).context →
        (p.setThreshold (p.handlers cpu) 7).readl reg = p.readl reg := fun reg hin hreg =>
      (readl_writel (r := .threshold _) hin (hp.wellFormed.context_lt cpu) _).trans (if_neg hreg)
    refine ⟨hp.wellFormed.of_sameHandlers ⟨rfl, rfl⟩,
      fun c hc => Nat.lt_succ_of_lt (hp.context_lt c hc), fun context word hin => ?_,
      fun hwirq => ?_⟩
    · exact (hread _ hin (by simp)).trans (hp.enable context word hin)
    · exact (hread (.priority hwirq) trivial (by simp)).trans (hp.priority hwirq)
  · have hlt : ∀ c, c ≠ cpu → (p.handlers c).present = true →
        (p.handlers c).context ≠ i := by
      intro c _ hc
      exact Nat.ne_of_lt (hp.context_lt c hc)
    refine ⟨⟨fun c => ?_, fun c c' => ?_, fun c => ?_⟩, fun c => ?_, hp.enable, hp.priority⟩
    · by_cases hc : c = cpu
      · simp [hc]
      · simpa [hc] using hp.wellFormed.lmask c
    · by_cases hc : c = cpu <;> by_cases hc' : c' = cpu
      · simp [hc, hc']
      · intro _ hpres heq
        simp only [hc, hc', update_self, update_of_ne, ne_eq,
          not_false_eq_true] at hpres heq
        exact absurd heq.symm (hlt c' hc' hpres)
      · intro hpres _ heq
        simp only [hc, hc', update_self, update_of_ne, ne_eq,
          not_false_eq_true] at hpres heq
        exact absurd heq (hlt c hc hpres)
      · simpa [hc, hc'] using hp.wellFormed.context_inj c c'
    · by_cases hc : c = cpu
      · simpa [hc] using hi
      · simpa [hc] using hp.wellFormed.context_lt c
    · by_cases hc : c = cpu
      · simp [hc]
      · intro hpres
        simp only [hc, update_of_ne, ne_eq, not_false_eq_true] at hpres ⊢
        exact Nat.lt_succ_of_lt (hp.context_lt c hpres)

theorem Initial.initContext (hp : p.Initial i) (hi : i < 8) {nrIrqs : Nat} (hirqs : nrIrqs < 1280)
    (cpu : Option (Fin n)) : (p.initContext nrIrqs i cpu).Initial (i + 1) := by
  cases cpu with
  | none => exact ⟨hp.wellFormed, fun c hc => Nat.lt_succ_of_lt (hp.context_lt c hc),
      hp.enable, hp.priority⟩
  | some cpu =>
    have hfold : ∀ (hwirqs : List Nat), (∀ h ∈ hwirqs, h < 1280) →
        ∀ q : Controller n, q.Initial (i + 1) →
          (hwirqs.foldl (fun p hwirq => p.toggle (p.handlers cpu) hwirq false) q).Initial
            (i + 1) := by
      intro hwirqs
      induction hwirqs with
      | nil => exact fun _ q hq => hq
      | cons h hwirqs ih =>
        intro hlt q hq
        obtain ⟨hh, hlt⟩ := List.forall_mem_cons.mp hlt
        exact ih hlt _ (hq.toggle (hq.wellFormed.context_lt cpu) hh)
    refine hfold _ (fun h hh => ?_) _ (hp.addHandler hi cpu)
    have hrange := (List.mem_range'_1.mp hh).2
    omega

theorem Initial.initContexts (hp : p.Initial i) {nrIrqs : Nat} (hirqs : nrIrqs < 1280)
    {contexts : List (Option (Fin n))} (hlen : i + contexts.length ≤ 8) :
    ∃ j, (p.initContexts nrIrqs i contexts).Initial j := by
  induction contexts generalizing p i with
  | nil => exact ⟨i, hp⟩
  | cons cpu contexts ih =>
    rw [List.length_cons] at hlen
    exact ih (hp.initContext (by omega) hirqs cpu) (by omega)

end Controller

theorem represents_plicInit {nrIrqs : Nat} (hirqs : nrIrqs < 1280)
    {contexts : List (Option (Fin n))} (hcontexts : contexts.length ≤ 8) :
    Represents (plicInit nrIrqs contexts) fun _ => none := by
  obtain ⟨j, hp⟩ := (Controller.initial_afterReset n).initContexts hirqs
    (show 0 + contexts.length ≤ 8 by omega)
  refine ⟨hp.wellFormed, fun cpu h hh _ => ?_, fun h => hp.priority h, nofun⟩
  have hin := Controller.inMap_enable (hp.wellFormed.context_lt cpu) hh
  exact (congrArg (BitVec.getLsbD · _) (hp.enable _ _ hin)).trans BitVec.getLsbD_zero

/-! ## Every operation -/

/-- The registers hold the routes, and a masked source has none. -/
structure Routed (s : System n) : Prop where
  represents : Represents s.ctl s.route
  masked : ∀ h, (s.irqs h).masked = true → s.route h = none

variable {s t : System n}

theorem routed_boot {nrIrqs : Nat} (hirqs : nrIrqs < 1280) {contexts : List (Option (Fin n))}
    (hcontexts : contexts.length ≤ 8) : Routed (boot nrIrqs contexts) :=
  ⟨represents_plicInit hirqs hcontexts, fun _ _ => rfl⟩

theorem System.UnmaskAnswer.lmask {hwirq : Nat} {online : Cpumask n} {answer : Option (Fin n)}
    (h : s.UnmaskAnswer hwirq online answer) : ∀ cpu ∈ answer, s.ctl.lmask cpu = true := by
  rintro cpu ⟨⟩
  exact (Bool.and_eq_true _ _ ▸ h.2).1

theorem lmask_of_chosen {p : Controller n} {maskVal online : Cpumask n} {force : Bool}
    {answer : Option (Fin n)} {cpu : Fin n}
    (h : Cpumask.IsAnyAnd (p.lmask.and maskVal) online answer)
    (hcpu : p.affinityCpu maskVal force answer = some cpu) :
    p.lmask cpu = true := by
  have hmem : p.lmask.and maskVal cpu = true := by
    cases force with
    | true => exact List.find?_some hcpu
    | false =>
      obtain rfl : answer = some cpu := hcpu
      exact h.1
  exact (Bool.and_eq_true _ _ ▸ hmem).1

theorem masked_update {irqs : Nat → IrqData n} {route : Routes n}
    (hmasked : ∀ h, (irqs h).masked = true → route h = none) (hwirq : Nat) {d : IrqData n}
    {r : Option (Fin n)} (hd : d.masked = true → r = none) (h : Nat) :
    (update irqs hwirq d h).masked = true → update route hwirq r h = none := by
  by_cases hh : h = hwirq
  · rw [hh, update_self, update_self]
    exact hd
  · rw [update_of_ne hh, update_of_ne hh]
    exact hmasked h

theorem System.setAffinity_of_none {hwirq : Nat} {maskVal : Cpumask n} {force : Bool}
    {answer : Option (Fin n)} (h : s.ctl.affinityCpu maskVal force answer = none) :
    s.setAffinity hwirq maskVal force answer = s := by
  unfold setAffinity Controller.setAffinity
  rw [h]
  rfl

theorem System.setAffinity_of_some {hwirq : Nat} {maskVal : Cpumask n} {force : Bool}
    {answer : Option (Fin n)} {cpu : Fin n}
    (h : s.ctl.affinityCpu maskVal force answer = some cpu) :
    s.setAffinity hwirq maskVal force answer =
      { ctl := (s.ctl.irqMask hwirq).irqToggle (Cpumask.of cpu) hwirq (!(s.irqs hwirq).masked)
        irqs := update s.irqs hwirq
          { s.irqs hwirq with affinity := maskVal, effectiveAffinity := Cpumask.of cpu }
        route := update s.route hwirq
          (if (s.irqs hwirq).masked then none else some cpu) } := by
  unfold setAffinity Controller.setAffinity
  rw [h]
  rfl

/-- **`plic_set_affinity`** moves the source when it is routed, and changes nothing when no
CPU is found. -/
theorem Routed.setAffinity (hs : Routed s) {hwirq : Nat} (hq : hwirq < 1280)
    {maskVal online : Cpumask n} {force : Bool} {answer : Option (Fin n)}
    (h : Cpumask.IsAnyAnd (s.ctl.lmask.and maskVal) online answer) :
    Routed (s.setAffinity hwirq maskVal force answer) := by
  cases hcpu : s.ctl.affinityCpu maskVal force answer with
  | none =>
    rw [System.setAffinity_of_none hcpu]
    exact hs
  | some cpu =>
    have hmask := hs.represents.irqMask hq
    have hlmask : (s.ctl.irqMask hwirq).lmask cpu = true := by
      rw [Controller.irqMask, (Controller.sameHandlers_irqToggle ..).lmask]
      exact lmask_of_chosen h hcpu
    have hroute := hmask.irqToggle_of hq (update_self ..) hlmask (!(s.irqs hwirq).masked)
    rw [update_idem] at hroute
    rw [System.setAffinity_of_some hcpu]
    refine ⟨?_, fun h => masked_update hs.masked hwirq (fun hm => if_pos hm) h⟩
    cases hm : (s.irqs hwirq).masked <;> (rw [hm] at hroute; exact hroute)

/-- **One operation** keeps the routes in the registers. -/
theorem Routed.step {e : PlicEvent n} (hs : Routed s) (hq : e.hwirq < 1280)
    (hstep : step s e = some t) : Routed t := by
  cases e with
  | mask hwirq =>
    obtain ⟨⟩ := hstep
    exact ⟨hs.represents.irqMask hq, masked_update hs.masked hwirq fun _ => rfl⟩
  | unmask hwirq online answer =>
    obtain ⟨⟨hm, hanswer⟩, ⟨⟩⟩ := Option.ite_none_right_eq_some.mp hstep
    exact ⟨hs.represents.irqUnmask hq (hs.masked hwirq hm) hanswer.lmask,
      masked_update hs.masked hwirq nofun⟩
  | setAffinity hwirq maskVal force online answer =>
    obtain ⟨hanswer, ⟨⟩⟩ := Option.ite_none_right_eq_some.mp hstep
    exact hs.setAffinity hq hanswer
  | eoi hwirq thisCpu online answer =>
    obtain ⟨hanswer, ⟨⟩⟩ := Option.ite_none_right_eq_some.mp hstep
    exact ⟨hs.represents.irqEoi hq (hs.masked hwirq) thisCpu hanswer.lmask, hs.masked⟩
  | coreAffinity hwirq affinity =>
    obtain ⟨⟩ := hstep
    refine ⟨hs.represents, fun h hm => ?_⟩
    have hkeep := masked_update hs.masked hwirq (d := { s.irqs hwirq with affinity := affinity })
      (hs.masked hwirq) h hm
    rwa [update_eq_self] at hkeep

/-- No operation changes which CPUs have a context. -/
theorem handlers_step {e : PlicEvent n} (hstep : step s e = some t) :
    t.ctl.handlers = s.ctl.handlers := by
  cases e with
  | mask hwirq =>
    obtain ⟨⟩ := hstep
    exact (Controller.sameHandlers_irqToggle ..).handlers
  | unmask hwirq online answer =>
    obtain ⟨-, ⟨⟩⟩ := Option.ite_none_right_eq_some.mp hstep
    cases answer with
    | none => rfl
    | some cpu => exact (Controller.sameHandlers_irqToggle ..).handlers
  | setAffinity hwirq maskVal force online answer =>
    obtain ⟨-, ⟨⟩⟩ := Option.ite_none_right_eq_some.mp hstep
    cases hcpu : s.ctl.affinityCpu maskVal force answer with
    | none => rw [System.setAffinity_of_none hcpu]
    | some cpu =>
      rw [System.setAffinity_of_some hcpu]
      exact ((Controller.sameHandlers_irqToggle ..).trans
        (Controller.sameHandlers_irqToggle ..)).handlers
  | eoi hwirq thisCpu online answer =>
    obtain ⟨-, ⟨⟩⟩ := Option.ite_none_right_eq_some.mp hstep
    dsimp only
    unfold Controller.irqEoi
    split
    · rw [Controller.irqMask, (Controller.sameHandlers_irqToggle ..).handlers]
      cases answer with
      | none => rfl
      | some cpu => exact (Controller.sameHandlers_irqToggle ..).handlers
    · rfl
  | coreAffinity hwirq affinity =>
    obtain ⟨⟩ := hstep
    rfl

/-- The source of an operation is the only one that it routes. -/
theorem route_of_ne {e : PlicEvent n} (hstep : step s e = some t) {h : Nat} (hne : h ≠ e.hwirq) :
    t.route h = s.route h := by
  cases e with
  | mask hwirq =>
    obtain ⟨⟩ := hstep
    exact update_of_ne hne _ _
  | unmask hwirq online answer =>
    obtain ⟨-, ⟨⟩⟩ := Option.ite_none_right_eq_some.mp hstep
    exact update_of_ne hne _ _
  | setAffinity hwirq maskVal force online answer =>
    obtain ⟨-, ⟨⟩⟩ := Option.ite_none_right_eq_some.mp hstep
    cases hcpu : s.ctl.affinityCpu maskVal force answer with
    | none => rw [System.setAffinity_of_none hcpu]
    | some cpu =>
      rw [System.setAffinity_of_some hcpu]
      exact update_of_ne hne _ _
  | eoi hwirq thisCpu online answer =>
    obtain ⟨-, ⟨⟩⟩ := Option.ite_none_right_eq_some.mp hstep
    rfl
  | coreAffinity hwirq affinity =>
    obtain ⟨⟩ := hstep
    rfl

theorem routed_of_exec {nrIrqs : Nat} (hirqs : nrIrqs < 1280) {contexts : List (Option (Fin n))}
    (hcontexts : contexts.length ≤ 8) {es : List (PlicEvent n)} (hes : ∀ e ∈ es, e.hwirq < 1280)
    (hrun : exec step (boot nrIrqs contexts) es = some s) : Routed s :=
  Runs.exec_invariant (C := fun _ e => e.hwirq < 1280) (fun _ _ _ hs hq hstep => hs.step hq hstep)
    (routed_boot hirqs hcontexts) (Runs.Along.of_mem hes) hrun

/-- **Routing.**  With at most eight contexts, and sources below 1280, in every reachable state a
source is enabled on at most one CPU, on none while it is masked, and its priority is 1 just when it
is unmasked and was routed.  An operation on another source changes neither its enable bits nor its
priority. -/
theorem enabled_unique {nrIrqs : Nat} (hirqs : nrIrqs < 1280) {contexts : List (Option (Fin n))}
    (hcontexts : contexts.length ≤ 8) {es : List (PlicEvent n)} (hes : ∀ e ∈ es, e.hwirq < 1280)
    (hrun : exec step (boot nrIrqs contexts) es = some s) {h : Nat} (hh : h < 1280) :
    (∀ cpu cpu', (s.ctl.handlers cpu).present = true → (s.ctl.handlers cpu').present = true →
      s.ctl.enabled cpu h = true → s.ctl.enabled cpu' h = true → cpu = cpu') ∧
    ((s.irqs h).masked = true →
      ∀ cpu, (s.ctl.handlers cpu).present = true → s.ctl.enabled cpu h = false) ∧
    (s.ctl.priority h = 1 ↔ (s.irqs h).masked = false ∧ s.route h ≠ none) ∧
    (∀ cpu, s.route h = some cpu →
      (s.ctl.handlers cpu).present = true ∧ s.ctl.enabled cpu h = true) ∧
    ∀ e t, step s e = some t → e.hwirq < 1280 → h ≠ e.hwirq →
      t.ctl.priority h = s.ctl.priority h ∧
      ∀ cpu, (s.ctl.handlers cpu).present = true → t.ctl.enabled cpu h = s.ctl.enabled cpu h := by
  have hs := routed_of_exec hirqs hcontexts hes hrun
  have hrep := hs.represents
  refine ⟨fun cpu cpu' hc hc' hen hen' => ?_, fun hm cpu hc => ?_, ?_, fun cpu hroute => ?_,
    fun e t hstep hq hne => ?_⟩
  · rw [hrep.enabled cpu h hh hc, decide_eq_true_iff] at hen
    rw [hrep.enabled cpu' h hh hc', decide_eq_true_iff] at hen'
    exact Option.some.inj (hen.symm.trans hen')
  · rw [hrep.enabled cpu h hh hc, hs.masked h hm]
    rfl
  · rw [hrep.priority]
    cases hroute : s.route h with
    | none => simp
    | some cpu =>
      have hm : (s.irqs h).masked = false := by
        refine Bool.eq_false_iff.mpr fun hm => ?_
        rw [hs.masked h hm] at hroute
        cases hroute
      simp [hm]
  · have hc := hrep.present h cpu hroute
    refine ⟨hc, ?_⟩
    rw [hrep.enabled cpu h hh hc, hroute]
    exact decide_eq_true rfl
  · have ht := (hs.step hq hstep).represents
    have hroute := route_of_ne hstep hne
    have hhandlers := handlers_step hstep
    refine ⟨?_, fun cpu hc => ?_⟩
    · rw [ht.priority, hrep.priority, hroute]
    · rw [ht.enabled cpu h hh (hhandlers ▸ hc), hrep.enabled cpu h hh hc, hroute]

/-- Two CPUs: a source is unmasked on the first, and moved to the second when the first
goes offline. -/
theorem enabled_unique_moved :
    ∃ s : System 2, exec step (boot 40 [some 0, none, some 1])
        [.unmask 33 (fun _ => true) (some 0), .mask 7,
          .setAffinity 33 (fun _ => true) false (Cpumask.of 1) (some 1)] = some s ∧
      s.ctl.enabled 1 33 = true ∧ s.ctl.enabled 0 33 = false ∧ s.ctl.priority 33 = 1 ∧
      ∀ cpu cpu', (s.ctl.handlers cpu).present = true → (s.ctl.handlers cpu').present = true →
        s.ctl.enabled cpu 33 = true → s.ctl.enabled cpu' 33 = true → cpu = cpu' := by
  have hobs : (exec step (boot 40 [some 0, none, some 1])
      [.unmask 33 (fun _ => true) (some 0), .mask 7,
        .setAffinity 33 (fun _ => true) false (Cpumask.of 1) (some (1 : Fin 2))]).map
        (fun s => (s.ctl.enabled 1 33, s.ctl.enabled 0 33, s.ctl.priority 33)) =
      some (true, false, 1) := by
    decide +kernel
  obtain ⟨s, hrun, hs⟩ := Option.map_eq_some_iff.mp hobs
  obtain ⟨h1, h0, hp⟩ : _ ∧ _ ∧ _ := by simpa using hs
  exact ⟨s, hrun, h1, h0, hp,
    (enabled_unique (by decide) (by decide) (by decide) hrun (h := 33) (by decide)).1⟩

/-- **The ninth context.**  Its first word of enable bits is the priority of source 24, which
unmasking source 5 on the ninth CPU sets to 32 while it is masked. -/
theorem not_enabled_unique : ∃ s t : System 9,
    exec step (boot 24 ((List.finRange 9).map some)) [] = some s ∧
      step s (.unmask 5 (fun _ => true) (some 8)) = some t ∧ s.ctl.priority 24 = 0 ∧
      (t.irqs 24).masked = true ∧ t.ctl.priority 24 = 32 := by
  refine ⟨_, _, rfl, rfl, ?_, rfl, ?_⟩
  · decide +kernel
  · decide +kernel

end RealtekIpcam.Plic
