import RealtekIpcam.Lib.BitField
import RealtekIpcam.Lib.Interrupt
import RealtekIpcam.Lib.Runs

/-!
# The interrupts of the XB2 bus

The bus gathers interrupts of several peripherals in one register.  Hardware irqs are numbered 0 to
10 and their flags lie elsewhere, so `rts_xb2_irq_enable` and `rts_xb2_irq_disable` go from the
number to the bit and `rts_irq_handler` goes back.

All three recognise the MDIO interrupts by a range test with its ends exchanged, which nothing
passes: enabling one does nothing, and its flag is looked up as an interrupt number by itself.  The
handler also sets the bit of the number, instead of the flag, in the flag register.  For the PWM
interrupts the two are the same.  `demultiplexes_iff` says what is left.
-/

namespace RealtekIpcam.Xb2

open BitField Interrupt Runs

abbrev Word := BitVec 32

/-! ## The driver -/

/-- The supported sources. -/
inductive Source where
  | pwm0 | pwm1 | pwm2 | pwm3 | saradc | mdioWr | mdioRd
  deriving DecidableEq

/-- `PWM0_DONE_INT_BIT` and so on, the flag of the source. -/
def Source.bit : Source → Nat
  | .pwm0 => 0
  | .pwm1 => 1
  | .pwm2 => 2
  | .pwm3 => 3
  | .saradc => 24
  | .mdioWr => 26
  | .mdioRd => 27

/-- `PWM0_DONE_INT_IRQ` and so on, the hardware irq of the source. -/
def Source.irq : Source → Nat
  | .pwm0 => 0
  | .pwm1 => 1
  | .pwm2 => 2
  | .pwm3 => 3
  | .saradc => 8
  | .mdioWr => 9
  | .mdioRd => 10

def pwmIrqOffset : Nat := Source.pwm0.bit - Source.pwm0.irq

def saradcIrqOffset : Nat := Source.saradc.bit - Source.saradc.irq

def mdioIrqOffset : Nat := Source.mdioWr.bit - Source.mdioWr.irq

def rtsNumIrqs : Nat := 11

/-- What `rts_xb2_irq_enable` and `rts_xb2_irq_disable` do to `XB2_PERIP_INT_EN`, by what they do to
a bit. -/
def changeIntEn (op : Word → Nat → Word) (hwirq : Nat) (intEn : Word) : Word :=
  if hwirq ≤ Source.pwm3.irq ∧ hwirq ≥ Source.pwm0.irq then op intEn (hwirq + pwmIrqOffset)
  else if hwirq ≤ Source.mdioWr.irq ∧ hwirq ≥ Source.mdioRd.irq then
    op intEn (hwirq + mdioIrqOffset)
  else if hwirq = Source.saradc.irq then op intEn (hwirq + saradcIrqOffset)
  else intEn

def rtsXb2IrqEnable := changeIntEn setBit

def rtsXb2IrqDisable := changeIntEn clearBit

/-- The irq domain that `rts_xb2_probe` sets up: its numbers are mapped, each to an interrupt of its
own, and no others. -/
structure IrqDomain where
  /-- `irq_linear_revmap`, which is 0 for a number that is not mapped. -/
  revmap : Nat → Nat
  mapped : ∀ hwirq < rtsNumIrqs, revmap hwirq ≠ 0
  beyond : ∀ hwirq, rtsNumIrqs ≤ hwirq → revmap hwirq = 0
  injective : ∀ hwirq < rtsNumIrqs, ∀ hwirq' < rtsNumIrqs, revmap hwirq = revmap hwirq' →
    hwirq = hwirq'

/-- What the handler does to the outside: it writes `XB2_PERIP_INT_FLAG`, it sets a bit in it on top
of what it reads, and it calls `generic_handle_irq`. -/
inductive Action where
  | ack (val : Word)
  | setFlag (read : Word) (nr : Nat)
  | handle (irqno : Nat)
  deriving DecidableEq

/-- The number that the handler makes of a bit. -/
def irqnoOf (offset : Nat) : Nat :=
  if offset ≤ Source.pwm3.bit ∧ offset ≥ Source.pwm0.bit then offset - pwmIrqOffset
  else if offset ≤ Source.mdioWr.bit ∧ offset ≥ Source.mdioRd.bit then offset - mdioIrqOffset
  else if offset = Source.saradc.bit then offset - saradcIrqOffset
  else offset

/-- The bits that the handler looks at. -/
def flagMask : Word := 0xd0000ff#32

variable (dom : IrqDomain)

/-- One round of the loop of `rts_irq_handler`; `reads offset` is what `set_bit` finds in the
register. -/
def handleBit (reads : Nat → Word) (offset : Nat) : List Action :=
  let irqno := irqnoOf offset
  .setFlag (reads offset) irqno ::
    if dom.revmap irqno ≠ 0 then [.handle (dom.revmap irqno)] else []

/-- `rts_irq_handler`, when it reads `flag` from `XB2_PERIP_INT_FLAG`. -/
def rtsIrqHandler (flag : Word) (reads : Nat → Word) : IrqReturn × List Action :=
  let val := flag &&& flagMask
  if val = 0#32 then (.none, [.ack val])
  else (.handled, .ack val :: (setBits val).flatMap (handleBit dom reads))

/-! ## What the translations are to do -/

/-- Enabling or disabling a hardware irq of the domain. -/
structure IrqOp where
  hwirq : Fin rtsNumIrqs
  on : Bool
  deriving DecidableEq

/-- What the driver makes of the enable bits. -/
def IrqOp.run (op : IrqOp) (intEn : Word) : Word :=
  if op.on then rtsXb2IrqEnable op.hwirq intEn else rtsXb2IrqDisable op.hwirq intEn

def Source.ofIrq : Nat → Option Source
  | 0 => some .pwm0
  | 1 => some .pwm1
  | 2 => some .pwm2
  | 3 => some .pwm3
  | 8 => some .saradc
  | 9 => some .mdioWr
  | 10 => some .mdioRd
  | _ => none

/-- What the enable bits are to be: that of the source whose hardware irq it is, and nothing else,
is set or cleared. -/
def IrqOp.asked (op : IrqOp) (intEn : Word) : Word :=
  match Source.ofIrq op.hwirq with
  | some src => putBit intEn src.bit op.on
  | none => intEn

/-- The enable bits as the driver keeps them, and as they are to be. -/
def enableStep (en : Word × Word) (op : IrqOp) : Option (Word × Word) :=
  some (op.run en.1, op.asked en.2)

/-- After every part of the sequence the enable bits are those that the sequence asks for, at the
bits of the flags. -/
def EnablesFlags (intEn : Word) (ops : List IrqOp) : Prop :=
  ∀ ops₁ ops₂ en, ops = ops₁ ++ ops₂ → exec enableStep (intEn, intEn) ops₁ = some en → en.1 = en.2

def handled (actions : List Action) : List Nat :=
  actions.filterMap fun
    | .handle irqno => some irqno
    | _ => none

/-- The action writes no flag but those that were pending when the handler began or when it read the
register. -/
def Action.WritesPending (flag : Word) : Action → Prop
  | .ack val => ∀ bit < 32, val.getLsbD bit = true → flag.getLsbD bit = true
  | .setFlag read nr => ∀ bit < 32, (setBit read nr).getLsbD bit = true →
      flag.getLsbD bit = true ∨ read.getLsbD bit = true
  | .handle _ => True

/-- The handler calls the interrupt of each source once if its flag is pending and else not at all,
and writes no flag that was not pending. -/
structure Demultiplexes (flag : Word) (reads : Nat → Word) : Prop where
  dispatch : ∀ src : Source, (handled (rtsIrqHandler dom flag reads).2).count (dom.revmap src.irq) =
    if flag.getLsbD src.bit then 1 else 0
  writes : ∀ action ∈ (rtsIrqHandler dom flag reads).2, action.WritesPending flag

/-- An operation on an MDIO interrupt asks for what the enable bit is already. -/
def MdioAsIs (en : Word × Word) (op : IrqOp) : Prop :=
  ∀ src, Source.ofIrq op.hwirq = some src → (src = .mdioWr ∨ src = .mdioRd) →
    en.1.getLsbD src.bit = op.on

variable {dom}

/-! ## Enabling and disabling -/

theorem putBit_true (v : Word) (n : Nat) : putBit v n true = setBit v n := by
  apply BitVec.eq_of_getLsbD_eq
  intro i hi
  rw [getLsbD_putBit hi, getLsbD_setBit hi]

theorem putBit_false (v : Word) (n : Nat) : putBit v n false = clearBit v n := by
  apply BitVec.eq_of_getLsbD_eq
  intro i hi
  rw [getLsbD_putBit hi, getLsbD_clearBit hi]

theorem changeIntEn_eq (change : Word → Nat → Word) {hwirq : Nat} (h : hwirq < rtsNumIrqs)
    (intEn : Word) :
    changeIntEn change hwirq intEn = match Source.ofIrq hwirq with
      | some .mdioWr => intEn
      | some .mdioRd => intEn
      | some src => change intEn src.bit
      | none => intEn := by
  have h11 : hwirq < 11 := h
  interval_cases hwirq <;> rfl

/-- What enabling and disabling do to the register. -/
theorem IrqOp.run_eq (op : IrqOp) (intEn : Word) :
    op.run intEn = match Source.ofIrq op.hwirq with
      | some .mdioWr => intEn
      | some .mdioRd => intEn
      | some src => putBit intEn src.bit op.on
      | none => intEn := by
  obtain ⟨⟨hwirq, hlt⟩, on⟩ := op
  cases on with
  | true =>
    simp only [IrqOp.run, putBit_true, if_true]
    exact changeIntEn_eq setBit hlt intEn
  | false =>
    simp only [IrqOp.run, putBit_false, Bool.false_eq_true, if_false]
    exact changeIntEn_eq clearBit hlt intEn

theorem run_eq_asked_iff (op : IrqOp) (intEn : Word) :
    op.run intEn = op.asked intEn ↔ MdioAsIs (intEn, intEn) op := by
  rw [op.run_eq, IrqOp.asked, MdioAsIs]
  cases hsrc : Source.ofIrq op.hwirq with
  | none => simp
  | some src =>
    have hput (hbit : src.bit < 32) : intEn = putBit intEn src.bit op.on ↔
        intEn.getLsbD src.bit = op.on := eq_comm.trans (putBit_eq_self_iff hbit)
    cases src with
    | mdioWr => simpa using hput (by decide)
    | mdioRd => simpa using hput (by decide)
    | pwm0 | pwm1 | pwm2 | pwm3 | saradc => simp

theorem enablesFlags_iff (intEn : Word) (ops : List IrqOp) :
    EnablesFlags intEn ops ↔ Along enableStep MdioAsIs (intEn, intEn) ops := by
  rw [EnablesFlags, forall_reached_iff]
  refine (and_iff_right rfl).trans (Along.congr (P := fun en => en.1 = en.2) ?_ ?_ rfl)
  · exact fun en op en' _ hC hstep => hC en' hstep
  · rintro ⟨en, en'⟩ op heq
    obtain rfl : en = en' := heq
    rw [← run_eq_asked_iff]
    refine ⟨fun h => h _ rfl, fun h en' hstep => ?_⟩
    rw [enableStep, Option.some_inj] at hstep
    rw [← hstep]
    exact h

/-! ## The handler -/

theorem irqnoOf_of_mask : ∀ bit < 32, flagMask.getLsbD bit = true →
    (bit ≤ 7 ∧ irqnoOf bit = bit) ∨ (bit = 24 ∧ irqnoOf bit = 8) ∨
      (bit = 26 ∧ irqnoOf bit = 26) ∨ (bit = 27 ∧ irqnoOf bit = 27) := by
  decide

theorem flagMask_bit (src : Source) : flagMask.getLsbD src.bit = true := by
  cases src <;> rfl

theorem getLsbD_val {flag : Word} {bit : Nat} :
    (flag &&& flagMask).getLsbD bit = true ↔
      flag.getLsbD bit = true ∧ flagMask.getLsbD bit = true := by
  rw [BitVec.getLsbD_and, Bool.and_eq_true]

theorem rtsIrqHandler_actions (flag : Word) (reads : Nat → Word) :
    (rtsIrqHandler dom flag reads).2 =
      .ack (flag &&& flagMask) :: (setBits (flag &&& flagMask)).flatMap (handleBit dom reads) := by
  rw [rtsIrqHandler]
  by_cases hzero : flag &&& flagMask = 0#32
  · simp [hzero, setBits_zero]
  · simp [hzero]

theorem handled_flatMap (reads : Nat → Word) (bits : List Nat) :
    handled (bits.flatMap (handleBit dom reads)) =
      (bits.filter fun bit => dom.revmap (irqnoOf bit) ≠ 0).map fun bit =>
        dom.revmap (irqnoOf bit) := by
  induction bits with
  | nil => rfl
  | cons bit bits ih =>
    rw [List.flatMap_cons, handled, List.filterMap_append, ← handled, ← handled, ih]
    by_cases h : dom.revmap (irqnoOf bit) ≠ 0
    · simp [handleBit, handled, h]
    · simp [handleBit, handled, not_not.mp h]

/-- A bit is handed to the interrupt of a source exactly if it is the bit of the source, and the
source is not an MDIO one. -/
theorem revmap_irqnoOf_iff (dom : IrqDomain) {bit : Nat} (hbit : bit < 32)
    (hmask : flagMask.getLsbD bit = true) (src : Source) :
    (dom.revmap (irqnoOf bit) ≠ 0 ∧ dom.revmap (irqnoOf bit) = dom.revmap src.irq) ↔
      bit = src.bit ∧ src ≠ .mdioWr ∧ src ≠ .mdioRd := by
  have hirq : src.irq < rtsNumIrqs := by cases src <;> decide
  have hsrc : dom.revmap src.irq ≠ 0 := dom.mapped _ hirq
  rcases irqnoOf_of_mask bit hbit hmask with ⟨hle, heq⟩ | ⟨rfl, heq⟩ | ⟨rfl, heq⟩ | ⟨rfl, heq⟩
  · have hlt : bit < rtsNumIrqs := lt_of_le_of_lt hle (by decide)
    have hiff : dom.revmap bit = dom.revmap src.irq ↔ bit = src.irq :=
      ⟨dom.injective bit hlt _ hirq, fun h => by rw [h]⟩
    rw [heq, hiff, and_iff_right (dom.mapped bit hlt)]
    cases src <;> simp [Source.irq, Source.bit] <;> omega
  · have hiff : dom.revmap 8 = dom.revmap src.irq ↔ 8 = src.irq :=
      ⟨dom.injective 8 (by decide) _ hirq, fun h => by rw [h]⟩
    rw [heq, hiff, and_iff_right (dom.mapped 8 (by decide))]
    cases src <;> simp [Source.irq, Source.bit]
  · rw [heq, dom.beyond 26 (by decide)]
    cases src <;> simp [Source.bit]
  · rw [heq, dom.beyond 27 (by decide)]
    cases src <;> simp [Source.bit]

theorem count_handled (flag : Word) (reads : Nat → Word) (src : Source) :
    (handled (rtsIrqHandler dom flag reads).2).count (dom.revmap src.irq) =
      if flag.getLsbD src.bit ∧ src ≠ .mdioWr ∧ src ≠ .mdioRd then 1 else 0 := by
  have hact : handled (rtsIrqHandler dom flag reads).2 =
      handled ((setBits (flag &&& flagMask)).flatMap (handleBit dom reads)) := by
    rw [rtsIrqHandler_actions]
    rfl
  have hbit : src.bit < 32 := by cases src <;> decide
  rw [hact, handled_flatMap, List.count, List.countP_map, List.countP_filter]
  by_cases hmdio : src ≠ .mdioWr ∧ src ≠ .mdioRd
  · have hcongr : (setBits (flag &&& flagMask)).countP (fun bit =>
        ((fun irqno => irqno == dom.revmap src.irq) ∘ fun bit => dom.revmap (irqnoOf bit)) bit &&
          decide (dom.revmap (irqnoOf bit) ≠ 0)) =
        (setBits (flag &&& flagMask)).count src.bit := by
      refine List.countP_congr fun bit hmem => ?_
      obtain ⟨hlt, hval⟩ := mem_setBits.mp hmem
      have hiff := revmap_irqnoOf_iff dom hlt (getLsbD_val.mp hval).2 src
      rw [and_iff_left hmdio] at hiff
      simp only [Function.comp_apply, Bool.and_eq_true, beq_iff_eq, decide_eq_true_eq]
      rw [← hiff]
      exact and_comm
    rw [hcongr, (nodup_setBits _).count]
    have hmem : src.bit ∈ setBits (flag &&& flagMask) ↔ flag.getLsbD src.bit = true := by
      rw [mem_setBits, getLsbD_val, and_iff_right hbit, and_iff_left (flagMask_bit src)]
    simp only [hmem, and_iff_left hmdio]
  · rw [if_neg fun h => hmdio h.2]
    refine List.countP_eq_zero.mpr fun bit hmem => ?_
    obtain ⟨hlt, hval⟩ := mem_setBits.mp hmem
    have hiff := revmap_irqnoOf_iff dom hlt (getLsbD_val.mp hval).2 src
    simp only [Function.comp_apply, Bool.and_eq_true, beq_iff_eq, decide_eq_true_eq]
    intro h
    exact hmdio (hiff.mp ⟨h.2, h.1⟩).2

/-- The flag that the handler sets for a pending one is pending too: it is the same flag, or the
number of the ADC. -/
theorem pending_irqnoOf {flag : Word} {reads : Nat → Word} {bit : Nat} (hlt : bit < 32)
    (hmask : flagMask.getLsbD bit = true) (hflag : flag.getLsbD bit = true)
    (hadc : flag.getLsbD 24 = true → flag.getLsbD 8 = true ∨ (reads 24).getLsbD 8 = true) :
    flag.getLsbD (irqnoOf bit) = true ∨ (reads bit).getLsbD (irqnoOf bit) = true := by
  rcases irqnoOf_of_mask bit hlt hmask with ⟨-, heq⟩ | ⟨rfl, heq⟩ | ⟨rfl, heq⟩ | ⟨rfl, heq⟩
  · exact Or.inl (heq.symm ▸ hflag)
  · exact heq.symm ▸ hadc hflag
  · exact Or.inl (heq.symm ▸ hflag)
  · exact Or.inl (heq.symm ▸ hflag)

/-- **What the handler writes was pending**, but for the number 8 of the ADC. -/
theorem writesPending_iff (dom : IrqDomain) (flag : Word) (reads : Nat → Word) :
    (∀ action ∈ (rtsIrqHandler dom flag reads).2, action.WritesPending flag) ↔
      (flag.getLsbD 24 = true → flag.getLsbD 8 = true ∨ (reads 24).getLsbD 8 = true) := by
  rw [rtsIrqHandler_actions]
  constructor
  · intro h h24
    have hmem : 24 ∈ setBits (flag &&& flagMask) :=
      mem_setBits.mpr ⟨by decide, getLsbD_val.mpr ⟨h24, by decide⟩⟩
    have hw := h (.setFlag (reads 24) 8) (List.mem_cons_of_mem _
      (List.mem_flatMap.mpr ⟨24, hmem, List.mem_cons_self⟩))
    exact hw 8 (by decide) (by rw [getLsbD_setBit (by decide)]; simp)
  · intro h action hmem
    rcases List.mem_cons.mp hmem with rfl | hmem
    · exact fun bit _ hval => (getLsbD_val.mp hval).1
    · obtain ⟨bit, hbit, hin⟩ := List.mem_flatMap.mp hmem
      obtain ⟨hlt, hval⟩ := mem_setBits.mp hbit
      obtain ⟨hflag, hmask⟩ := getLsbD_val.mp hval
      rw [handleBit, List.mem_cons] at hin
      rcases hin with rfl | hin
      · intro i hi hset
        rw [getLsbD_setBit hi] at hset
        by_cases hib : i = irqnoOf bit
        · rw [hib]
          exact pending_irqnoOf hlt hmask hflag h
        · exact Or.inr (by simpa [hib] using hset)
      · by_cases hrev : dom.revmap (irqnoOf bit) ≠ 0
        · rw [if_pos hrev, List.mem_singleton] at hin
          rw [hin]
          trivial
        · rw [if_neg hrev] at hin
          cases hin

/-- **The handler demultiplexes exactly the registers without MDIO flags** and without the flag of
the ADC, unless bit 8 is pending by itself. -/
theorem demultiplexes_flag_iff (flag : Word) (reads : Nat → Word) :
    Demultiplexes dom flag reads ↔
      flag.getLsbD 26 = false ∧ flag.getLsbD 27 = false ∧
        (flag.getLsbD 24 = true → flag.getLsbD 8 = true ∨ (reads 24).getLsbD 8 = true) := by
  have hdispatch : (∀ src : Source,
      (handled (rtsIrqHandler dom flag reads).2).count (dom.revmap src.irq) =
        if flag.getLsbD src.bit then 1 else 0) ↔
      flag.getLsbD 26 = false ∧ flag.getLsbD 27 = false := by
    constructor
    · intro h
      have hwr := h .mdioWr
      have hrd := h .mdioRd
      rw [count_handled] at hwr hrd
      simp only [Source.bit] at hwr hrd
      constructor
      · by_contra hne
        simp [Bool.not_eq_false .. |>.mp hne] at hwr
      · by_contra hne
        simp [Bool.not_eq_false .. |>.mp hne] at hrd
    · rintro ⟨h26, h27⟩ src
      rw [count_handled]
      cases src with
      | mdioWr =>
        rw [Source.bit, h26]
        simp
      | mdioRd =>
        rw [Source.bit, h27]
        simp
      | pwm0 | pwm1 | pwm2 | pwm3 | saradc => simp
  rw [← writesPending_iff dom, ← and_assoc, ← hdispatch]
  exact ⟨fun h => ⟨h.dispatch, h.writes⟩, fun h => ⟨h.1, h.2⟩⟩

/-- **The translations agree exactly if no MDIO interrupt is used and the ADC does not fire.**  A
sequence of enabling and disabling sets and clears the bits of the flags that the handler dispatches
to the same numbers, and the handler calls what is pending and writes nothing else. -/
theorem demultiplexes_iff (dom : IrqDomain) (intEn : Word) (ops : List IrqOp) (flag : Word)
    (reads : Nat → Word) :
    (EnablesFlags intEn ops ∧ Demultiplexes dom flag reads) ↔
      Along enableStep MdioAsIs (intEn, intEn) ops ∧ flag.getLsbD 26 = false ∧
        flag.getLsbD 27 = false ∧
          (flag.getLsbD 24 = true → flag.getLsbD 8 = true ∨ (reads 24).getLsbD 8 = true) := by
  rw [enablesFlags_iff, demultiplexes_flag_iff]

/-- The domain whose interrupts are numbered from 32 on. -/
def plainDomain : IrqDomain where
  revmap hwirq := if hwirq < 11 then hwirq + 32 else 0
  mapped hwirq h := by
    have h11 : hwirq < 11 := h
    simp [h11]
  beyond hwirq h := by
    have h11 : ¬ hwirq < 11 := Nat.not_lt.mpr h
    simp [h11]
  injective hwirq h hwirq' h' heq := by
    have h11 : hwirq < 11 := h
    have h11' : hwirq' < 11 := h'
    simp only [h11, h11', if_true] at heq
    omega

/-- Enabling the MDIO write interrupt sets no bit; its flag calls no handler; and the flag of the
ADC makes the handler write bit 8. -/
theorem not_demultiplexes_mdio :
    ¬ EnablesFlags 0#32 [⟨⟨9, by decide⟩, true⟩] ∧
      ¬ Demultiplexes plainDomain 0x4000000#32 (fun _ => 0#32) ∧
      ¬ Demultiplexes plainDomain 0x1000000#32 (fun _ => 0#32) := by
  refine ⟨fun h => ?_, fun h => ?_, fun h => ?_⟩
  · have heq := h [⟨⟨9, by decide⟩, true⟩] [] _ rfl rfl
    exact absurd heq (by decide)
  · have hcount := h.dispatch .mdioWr
    exact absurd hcount (by decide +kernel)
  · have hwrite := h.writes (.setFlag 0#32 8) (by decide +kernel)
    rcases hwrite 8 (by decide) (by decide) with hpending | hpending
    · exact absurd hpending (by decide)
    · exact absurd hpending (by decide)

end RealtekIpcam.Xb2
