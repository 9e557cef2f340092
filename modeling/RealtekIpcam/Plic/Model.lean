import RealtekIpcam.Lib.BitField
import Mathlib.Data.List.FinRange

/-!
# The platform-level interrupt controller

The controller has a priority register for each source and, for each hart context, a row of
words of enable bits, a threshold and a register that is written to complete an interrupt.
The driver routes a source to one CPU at a time: it sets the enable bit in that CPU's
context, with priority 1, and clears the bit in the contexts of all CPUs to mask it.

Registers are words at offsets, and `PlicReg.offset` is where the driver finds each.  The map has
room for eight contexts with 1280 sources each; inside it, `offset_injOn`, no two registers meet.
-/

namespace RealtekIpcam.Plic

/-- A register of the controller. -/
inductive PlicReg where
  | priority (hwirq : Nat)
  | enable (context word : Nat)
  | threshold (context : Nat)
  | complete (context : Nat)
  deriving DecidableEq

/-- Where a register is, from the start of the controller. -/
def PlicReg.offset : PlicReg → Nat
  | .priority hwirq => 0x800 + hwirq * 4
  | .enable context word => 0x60 + context * 0x100 + word * 4
  | .threshold context => 0x5c + context * 0x100
  | .complete context => 0x58 + context * 0x100

/-- The context and the word of a register fit into the map. -/
def PlicReg.InMap : PlicReg → Prop
  | .priority _ => True
  | .enable context word => context < 8 ∧ word < 40
  | .threshold context => context < 8
  | .complete context => context < 8

/-- Inside the map, registers have places of their own. -/
theorem PlicReg.offset_injOn {r r' : PlicReg} (h : r.InMap) (h' : r'.InMap)
    (heq : r.offset = r'.offset) : r = r' := by
  cases r <;> cases r' <;> simp only [InMap, offset] at h h' heq <;>
    simp only [reduceCtorEq, priority.injEq, enable.injEq, threshold.injEq, complete.injEq] <;>
      omega

/-- A set of the `n` possible CPUs. -/
abbrev Cpumask (n : Nat) := Fin n → Bool

namespace Cpumask

variable {n : Nat}

/-- `cpumask_and`. -/
def and (a b : Cpumask n) : Cpumask n := fun cpu => a cpu && b cpu

/-- `cpumask_of`. -/
def of (cpu : Fin n) : Cpumask n := fun c => decide (c = cpu)

/-- `cpumask_first`, `none` for a number that is not below `nr_cpu_ids`. -/
def first (mask : Cpumask n) : Option (Fin n) := (List.finRange n).find? mask

/-- What `cpumask_any_and` may answer: any CPU in both masks, if there is one. -/
def IsAnyAnd (a b : Cpumask n) : Option (Fin n) → Prop
  | some cpu => a cpu = true ∧ b cpu = true
  | none => ∀ cpu, a cpu = true → b cpu = false

instance instDecidableIsAnyAnd (a b : Cpumask n) : ∀ answer, Decidable (IsAnyAnd a b answer)
  | some _ => inferInstanceAs (Decidable (_ ∧ _))
  | none => inferInstanceAs (Decidable (∀ _, _ → _))

end Cpumask

/-- `struct plic_handler`: the context that `hart_base` and `enable_base` are computed
from. -/
structure Handler where
  present : Bool
  context : Nat
  deriving DecidableEq

/-- `struct plic_priv` with the handlers of its CPUs, the registers, and what was written
to the complete registers, with the context. -/
structure Controller (n : Nat) where
  lmask : Cpumask n
  handlers : Fin n → Handler
  regs : Nat → BitVec 32
  completed : List (Nat × Nat)

/-- What the interrupt core keeps of a source in `struct irq_data`. -/
structure IrqData (n : Nat) where
  masked : Bool
  affinity : Cpumask n
  effectiveAffinity : Cpumask n

namespace Controller

variable {n : Nat} (p : Controller n)

def readl (reg : PlicReg) : BitVec 32 := p.regs reg.offset

def writel (value : BitVec 32) (reg : PlicReg) : Controller n :=
  { p with regs := Function.update p.regs reg.offset value }

/-- `plic_toggle`. -/
def toggle (handler : Handler) (hwirq : Nat) (enable : Bool) : Controller n :=
  let reg := PlicReg.enable handler.context (hwirq / 32)
  if enable then p.writel (BitField.setBit (p.readl reg) (hwirq % 32)) reg
  else p.writel (BitField.clearBit (p.readl reg) (hwirq % 32)) reg

/-- One pass of the loop in `plic_irq_toggle`. -/
def toggleCpu (hwirq : Nat) (enable : Bool) (p : Controller n) (cpu : Fin n) : Controller n :=
  if (p.handlers cpu).present && p.lmask cpu then p.toggle (p.handlers cpu) hwirq enable else p

/-- `plic_irq_toggle`. -/
def irqToggle (mask : Cpumask n) (hwirq : Nat) (enable : Bool) : Controller n :=
  ((List.finRange n).filter mask).foldl (toggleCpu hwirq enable)
    (p.writel (if enable then 1 else 0) (.priority hwirq))

/-- `plic_irq_unmask`, with the answer of `cpumask_any_and`. -/
def irqUnmask (hwirq : Nat) (cpu : Option (Fin n)) : Controller n :=
  match cpu with
  | none => p
  | some cpu => p.irqToggle (Cpumask.of cpu) hwirq true

/-- `plic_irq_mask`. -/
def irqMask (hwirq : Nat) : Controller n := p.irqToggle p.lmask hwirq false

/-- The CPU that `plic_set_affinity` chooses, with the answer of `cpumask_any_and`. -/
def affinityCpu (maskVal : Cpumask n) (force : Bool) (anyAnd : Option (Fin n)) :
    Option (Fin n) :=
  if force then (p.lmask.and maskVal).first else anyAnd

/-- `plic_set_affinity`: the error or 0 for `IRQ_SET_MASK_OK_DONE`, the controller and the
source's data. -/
def setAffinity (d : IrqData n) (hwirq : Nat) (maskVal : Cpumask n) (force : Bool)
    (anyAnd : Option (Fin n)) : Int × Controller n × IrqData n :=
  match p.affinityCpu maskVal force anyAnd with
  | none => (-22, p, d)
  | some cpu =>
    let p := p.irqToggle p.lmask hwirq false
    let p := p.irqToggle (Cpumask.of cpu) hwirq (!d.masked)
    (0, p, { d with effectiveAffinity := Cpumask.of cpu })

/-- The write to `CONTEXT_COMPLETE` of a CPU. -/
def complete (cpu : Fin n) (hwirq : Nat) : Controller n :=
  let context := (p.handlers cpu).context
  { p.writel (BitVec.ofNat 32 hwirq) (.complete context) with
    completed := p.completed ++ [(context, hwirq)] }

/-- `plic_irq_eoi` on `thisCpu`. -/
def irqEoi (d : IrqData n) (thisCpu : Fin n) (hwirq : Nat) (anyAnd : Option (Fin n)) :
    Controller n :=
  if d.masked then ((p.irqUnmask hwirq anyAnd).complete thisCpu hwirq).irqMask hwirq
  else p.complete thisCpu hwirq

/-- `plic_set_threshold`. -/
def setThreshold (handler : Handler) (threshold : BitVec 32) : Controller n :=
  p.writel threshold (.threshold handler.context)

/-! ## Initialization -/

/-- The handler of a CPU for a context, in `plic_init`: the first context of a CPU is its
own, and any other one of that CPU is ignored. -/
def addHandler (i : Nat) (cpu : Fin n) : Controller n :=
  if (p.handlers cpu).present then p.setThreshold (p.handlers cpu) 7
  else { p with
    lmask := Function.update p.lmask cpu true
    handlers := Function.update p.handlers cpu ⟨true, i⟩ }

/-- One pass of the loop of `plic_init` over the contexts: `none` for a context that is
not for external interrupts or has no CPU. -/
def initContext (nrIrqs : Nat) (p : Controller n) (i : Nat) : Option (Fin n) → Controller n
  | none => p
  | some cpu =>
    let p := p.addHandler i cpu
    (List.range' 1 nrIrqs).foldl (fun p hwirq => p.toggle (p.handlers cpu) hwirq false) p

/-- The loop, from context `i` on. -/
def initContexts (nrIrqs : Nat) (p : Controller n) (i : Nat) :
    List (Option (Fin n)) → Controller n
  | [] => p
  | cpu :: contexts => initContexts nrIrqs (initContext nrIrqs p i cpu) (i + 1) contexts

end Controller

/-- The controller after reset, with the zeroed `plic_priv` and `plic_handlers`. -/
def afterReset (n : Nat) : Controller n where
  lmask := fun _ => false
  handlers := fun _ => ⟨false, 0⟩
  regs := fun _ => 0
  completed := []

/-- `plic_init`, for the CPUs of the contexts that the device tree lists. -/
def plicInit {n : Nat} (nrIrqs : Nat) (contexts : List (Option (Fin n))) : Controller n :=
  (afterReset n).initContexts nrIrqs 0 contexts

end RealtekIpcam.Plic
