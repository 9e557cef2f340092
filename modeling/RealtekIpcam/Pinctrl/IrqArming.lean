import RealtekIpcam.Lib.Runs
import RealtekIpcam.Pinctrl.Driver

/-!
# Which edges a pin's interrupt is armed for

A group's `GPIO_INT_EN` register has one bit for the falling edge of every pin, from bit 0 on, and
one for the rising edge, `intStride` bits above it.  `armed` reads these bits, and `Arming` is what
they are there for: a pin is armed for the edges of the type it had at its last enable, and for none
after a disable.

The driver does not keep to this in two places.  `rts_gpio_irq_disable` takes the number of the pin
for the position of its bit, which is right in the first group only, and `rts_gpio_irq_enable` sets
bits but does not clear those of an earlier type.  `ArmOk` is the condition that a step stays clear
of both, and `armed_of_armOk` is the refinement for all runs that meet it.
-/

namespace RealtekIpcam.Pinctrl

open BitField Function Runs

/-! ## The abstract view -/

inductive Edge where
  | rising | falling
  deriving DecidableEq

/-- An interrupt of this type is triggered by the edge. -/
def Edge.Triggers (type : Nat) : Edge → Prop
  | .rising => type = IRQ_TYPE_EDGE_RISING ∨ type = IRQ_TYPE_EDGE_BOTH
  | .falling => type = IRQ_TYPE_EDGE_FALLING ∨ type = IRQ_TYPE_EDGE_BOTH

instance (type : Nat) (edge : Edge) : Decidable (edge.Triggers type) := by
  cases edge <;> exact inferInstanceAs (Decidable (_ ∨ _))

/-- The operations on a pin's interrupt. -/
inductive IrqOp where
  | setType (gpio type : Nat)
  | enable (gpio : Nat)
  | disable (gpio : Nat)
  deriving DecidableEq

def IrqOp.gpio : IrqOp → Nat
  | .setType gpio _ => gpio
  | .enable gpio => gpio
  | .disable gpio => gpio

/-- What the pins' interrupts are set to: the type of each pin, and the edges it is armed for. -/
structure Arming where
  type : Nat → Nat
  armed : Nat → Edge → Bool

/-- A valid type is remembered; an enable arms the edges of the type, a disable none. -/
def Arming.step (a : Arming) : IrqOp → Arming
  | .setType gpio type =>
    if type ≤ IRQ_TYPE_EDGE_BOTH then { a with type := update a.type gpio type } else a
  | .enable gpio =>
    { a with armed := update a.armed gpio fun edge => edge.Triggers (a.type gpio) }
  | .disable gpio => { a with armed := update a.armed gpio fun _ => false }

/-- What the pins' interrupts are set to after a row of operations, when no pin is armed before. -/
def Arming.run (type : Nat → Nat) (ops : List IrqOp) : Arming :=
  ops.foldl Arming.step ⟨type, fun _ _ => false⟩

/-! ## The driver -/

/-- One operation of the driver. -/
def irqStep (rtspc : RtsPinctrl) : IrqOp → Option RtsPinctrl
  | .setType gpio type => some (rtspc.rtsGpioIrqSetType gpio type).2
  | .enable gpio => rtspc.rtsGpioIrqEnable gpio
  | .disable gpio => rtspc.rtsGpioIrqDisable gpio

/-- The bit of `GPIO_INT_EN` for an edge of a pin. -/
def intBit (sc : SharepinCfgAddr) (gpio : Nat) : Edge → Nat
  | .rising => gpio - sc.pinl + intStride sc
  | .falling => gpio - sc.pinl

/-- The pin's interrupt is enabled for the edge. -/
def RtsPinctrl.armed (rtspc : RtsPinctrl) (gpio : Nat) (edge : Edge) : Bool :=
  match rtsGetPinaddr gpio with
  | some sc => (rtspc.readl (sc.pinaddr + pinregsGpioIntEn)).getLsbD (intBit sc gpio edge)
  | none => false

/-- The step stays clear of the two holes.

* An enable finds no edge armed that is not of the type it arms. * A disable is of a pin of
the first group, or of a pin that is not armed, and in the latter case its shifts are defined.
-/
def ArmOk (rtspc : RtsPinctrl) : IrqOp → Prop
  | .setType _ _ => True
  | .enable gpio =>
    (rtspc.armed gpio .rising = true → Edge.rising.Triggers (rtspc.irqType gpio)) ∧
      (rtspc.armed gpio .falling = true → Edge.falling.Triggers (rtspc.irqType gpio))
  | .disable gpio =>
    gpio < 16 ∨ (rtspc.armed gpio .rising = false ∧ rtspc.armed gpio .falling = false ∧ gpio < 28)

instance (rtspc : RtsPinctrl) : DecidablePred (ArmOk rtspc)
  | .setType _ _ => isTrue trivial
  | .enable _ => inferInstanceAs (Decidable (_ ∧ _))
  | .disable _ => inferInstanceAs (Decidable (_ ∨ _))

/-! ## The bits -/

variable {rtspc rtspc' : RtsPinctrl} {gpio gpio' reg bit i : Nat} {sc sc' : SharepinCfgAddr}
  {edge edge' : Edge} {v : Word}

theorem readl_writel (hreg : reg ∉ readsZero) (r : Nat) :
    (rtspc.writel v reg).readl r = if r = reg then v else rtspc.readl r := by
  unfold RtsPinctrl.readl RtsPinctrl.writel
  by_cases hr : r = reg
  · subst hr
    rw [if_neg hreg, if_pos rfl]
    exact update_self r v rtspc.regs
  · rw [if_neg hr]
    split
    · rfl
    · exact update_of_ne hr v rtspc.regs

theorem intEn_notMem : ∀ sc ∈ pincfgaddr, sc.pinaddr + pinregsGpioIntEn ∉ readsZero := by
  decide

theorem intStride_bounds : ∀ sc ∈ pincfgaddr, sc.pinh - sc.pinl < intStride sc ∧
    sc.pinh - sc.pinl + intStride sc < 32 := by
  decide

theorem intBit_lt (h : rtsGetPinaddr gpio = some sc) : intBit sc gpio edge < 32 := by
  obtain ⟨hmem, hlo, hhi⟩ := rtsGetPinaddr_mem h
  have hbounds := intStride_bounds sc hmem
  cases edge with
  | rising => show gpio - sc.pinl + intStride sc < 32; omega
  | falling => show gpio - sc.pinl < 32; omega

theorem intBit_inj (h : rtsGetPinaddr gpio = some sc) (h' : rtsGetPinaddr gpio' = some sc) :
    intBit sc gpio edge = intBit sc gpio' edge' ↔ gpio = gpio' ∧ edge = edge' := by
  obtain ⟨hmem, hlo, hhi⟩ := rtsGetPinaddr_mem h
  obtain ⟨-, hlo', hhi'⟩ := rtsGetPinaddr_mem h'
  have hbounds := intStride_bounds sc hmem
  cases edge <;> cases edge' <;>
    simp only [intBit, reduceCtorEq, and_false, and_true, iff_false] <;>
    omega

theorem armed_eq (h : rtsGetPinaddr gpio = some sc) (edge : Edge) : rtspc.armed gpio edge =
    (rtspc.readl (sc.pinaddr + pinregsGpioIntEn)).getLsbD (intBit sc gpio edge) := by
  unfold RtsPinctrl.armed
  rw [h]

theorem armed_writel (h : rtsGetPinaddr gpio = some sc) (gpio' : Nat) (edge' : Edge) :
    (rtspc.writel v (sc.pinaddr + pinregsGpioIntEn)).armed gpio' edge' =
      if rtsGetPinaddr gpio' = some sc then v.getLsbD (intBit sc gpio' edge')
      else rtspc.armed gpio' edge' := by
  have hmem := (rtsGetPinaddr_mem h).1
  cases h' : rtsGetPinaddr gpio' with
  | none =>
    rw [if_neg (by simp)]
    simp only [RtsPinctrl.armed, h']
  | some sc' =>
    rw [armed_eq h', readl_writel (intEn_notMem sc hmem)]
    by_cases hsc : sc' = sc
    · subst hsc
      rw [if_pos rfl, if_pos rfl]
    · have hne : sc'.pinaddr + pinregsGpioIntEn ≠ sc.pinaddr + pinregsGpioIntEn :=
        fun heq => hsc (pinaddr_inj (rtsGetPinaddr_mem h').1 hmem (by decide) (by decide) heq).1
      rw [if_neg hne, if_neg fun heq => hsc (Option.some_inj.mp heq), armed_eq h']

variable (rtspc) in
theorem armed_setBit (h : rtsGetPinaddr gpio = some sc) (edge : Edge) :
    ∃ rtspc', rtspc.rtsSetRegBit (intBit sc gpio edge) (sc.pinaddr + pinregsGpioIntEn) =
        some rtspc' ∧ rtspc'.irqType = rtspc.irqType ∧
      ∀ gpio' edge', rtspc'.armed gpio' edge' =
        if gpio' = gpio ∧ edge' = edge then true else rtspc.armed gpio' edge' := by
  refine ⟨_, if_pos (intBit_lt h), rfl, fun gpio' edge' => ?_⟩
  rw [armed_writel h]
  by_cases hsc : rtsGetPinaddr gpio' = some sc
  · rw [if_pos hsc, getLsbD_setBit (intBit_lt hsc), armed_eq hsc]
    simp only [intBit_inj hsc h]
  · have hne : gpio' ≠ gpio := fun heq => hsc (heq ▸ h)
    rw [if_neg hsc, if_neg fun heq => hne heq.1]

variable (rtspc) in
theorem armed_clearBit (h : rtsGetPinaddr gpio = some sc) (hbit : bit < 32) :
    ∃ rtspc', rtspc.rtsClrRegBit bit (sc.pinaddr + pinregsGpioIntEn) = some rtspc' ∧
      rtspc'.irqType = rtspc.irqType ∧
      ∀ gpio' edge', rtspc'.armed gpio' edge' =
        if rtsGetPinaddr gpio' = some sc ∧ intBit sc gpio' edge' = bit then false
        else rtspc.armed gpio' edge' := by
  refine ⟨_, if_pos hbit, rfl, fun gpio' edge' => ?_⟩
  rw [armed_writel h]
  by_cases hsc : rtsGetPinaddr gpio' = some sc
  · rw [if_pos hsc, getLsbD_clearBit (intBit_lt hsc), armed_eq hsc]
    simp only [hsc, true_and]
  · rw [if_neg hsc, if_neg fun heq => hsc heq.1]

/-! ## The operations -/

variable (rtspc) in
theorem armed_ifTriggers (h : rtsGetPinaddr gpio = some sc) (edge : Edge) :
    ∃ rtspc', (if edge.Triggers (rtspc.irqType gpio) then
        rtspc.rtsSetRegBit (intBit sc gpio edge) (sc.pinaddr + pinregsGpioIntEn)
      else some rtspc) = some rtspc' ∧ rtspc'.irqType = rtspc.irqType ∧
      ∀ gpio' edge', rtspc'.armed gpio' edge' =
        if gpio' = gpio ∧ edge' = edge ∧ edge.Triggers (rtspc.irqType gpio) then true
        else rtspc.armed gpio' edge' := by
  by_cases htrig : edge.Triggers (rtspc.irqType gpio)
  · obtain ⟨rtspc', hset, htype, harmed⟩ := armed_setBit rtspc h edge
    refine ⟨rtspc', by rw [if_pos htrig, hset], htype, fun gpio' edge' => ?_⟩
    rw [harmed]
    simp only [htrig, and_true]
  · refine ⟨rtspc, if_neg htrig, rfl, fun gpio' edge' => ?_⟩
    rw [if_neg fun heq => htrig heq.2.2]

variable (rtspc) in
/-- Enabling arms the edges of the type. -/
theorem armed_irqEnable (h : rtsGetPinaddr gpio = some sc) :
    ∃ rtspc', rtspc.rtsGpioIrqEnable gpio = some rtspc' ∧ rtspc'.irqType = rtspc.irqType ∧
      ∀ gpio' edge', rtspc'.armed gpio' edge' =
        if gpio' = gpio ∧ edge'.Triggers (rtspc.irqType gpio) then true
        else rtspc.armed gpio' edge' := by
  obtain ⟨hmem, hlo, hhi⟩ := rtsGetPinaddr_mem h
  have hgpio : gpio < rtsMaxNgpio := Nat.lt_of_le_of_lt hhi (pincfgaddr_width sc hmem).2
  obtain ⟨u, hu, hutype, huarmed⟩ := armed_ifTriggers rtspc h .rising
  obtain ⟨w, hw, hwtype, hwarmed⟩ := armed_ifTriggers u h .falling
  refine ⟨w, ?_, hwtype.trans hutype, fun gpio' edge' => ?_⟩
  · unfold RtsPinctrl.rtsGpioIrqEnable
    rw [h, Option.bind_some]
    dsimp only
    rw [if_pos hgpio]
    exact Option.bind_eq_some_iff.mpr ⟨u, hu, hw⟩
  · rw [hwarmed, huarmed, hutype]
    cases edge' with
    | rising =>
      rw [if_neg (by simp)]
      simp only [true_and]
    | falling =>
      simp only [true_and, reduceCtorEq, false_and, and_false, if_false]

variable (rtspc) in
theorem armed_irqDisable_first (hgpio : gpio < 16) :
    ∃ rtspc', rtspc.rtsGpioIrqDisable gpio = some rtspc' ∧ rtspc'.irqType = rtspc.irqType ∧
      ∀ gpio' edge', rtspc'.armed gpio' edge' =
        if gpio' = gpio then false else rtspc.armed gpio' edge' := by
  have h : rtsGetPinaddr gpio = some ⟨0, 15, .generic, gpioOe⟩ :=
    (by decide : ∀ gpio < 16, rtsGetPinaddr gpio = some ⟨0, 15, .generic, gpioOe⟩) gpio hgpio
  obtain ⟨u, hu, hutype, huarmed⟩ :=
    armed_clearBit rtspc h (by omega : gpio < 32)
  obtain ⟨w, hw, hwtype, hwarmed⟩ :=
    armed_clearBit u h (by omega : gpio + 16 < 32)
  refine ⟨w, ?_, hwtype.trans hutype, fun gpio' edge' => ?_⟩
  · unfold RtsPinctrl.rtsGpioIrqDisable
    rw [h, Option.bind_some]
    dsimp only
    rw [if_pos (Nat.lt_of_lt_of_le hgpio (by decide))]
    exact Option.bind_eq_some_iff.mpr ⟨u, hu, hw⟩
  · rw [hwarmed, huarmed]
    by_cases heq : gpio' = gpio
    · subst heq
      rw [if_pos rfl]
      cases edge' with
      | rising => exact if_pos ⟨h, rfl⟩
      | falling =>
        split
        · rfl
        · exact if_pos ⟨h, rfl⟩
    · rw [if_neg heq]
      have hfar : ∀ edge, intBit ⟨0, 15, .generic, gpioOe⟩ gpio edge =
          intBit ⟨0, 15, .generic, gpioOe⟩ gpio' edge' → rtsGetPinaddr gpio' ≠
            some ⟨0, 15, .generic, gpioOe⟩ :=
        fun edge hbit h' => heq ((intBit_inj h h').mp hbit).1.symm
      rw [if_neg fun hbit => hfar .rising hbit.2.symm hbit.1,
        if_neg fun hbit => hfar .falling hbit.2.symm hbit.1]

/-- In the groups with four pins at most, the bits of a register lie below those that a disable of a
pin from 16 on clears. -/
theorem intBit_lt_sixteen : ∀ sc ∈ pincfgaddr, 16 ≤ sc.pinl → sc.pinl < 28 →
    sc.pinh - sc.pinl + intStride sc < 16 ∧ intStride sc = 4 := by
  decide

variable (rtspc) in
theorem armed_irqDisable_idle (hlo : 16 ≤ gpio) (hhi : gpio < 28) :
    ∃ rtspc', rtspc.rtsGpioIrqDisable gpio = some rtspc' ∧ rtspc'.irqType = rtspc.irqType ∧
      ∀ gpio' edge', rtspc'.armed gpio' edge' = rtspc.armed gpio' edge' := by
  obtain ⟨sc, hmem, h⟩ := pincfgaddr_cover gpio (Nat.lt_trans hhi (by decide))
  have hpinl : 16 ≤ sc.pinl ∧ sc.pinl < 28 := by
    refine ⟨?_, Nat.lt_of_le_of_lt (rtsGetPinaddr_mem h).2.1 hhi⟩
    by_contra hlt
    have hsc : sc.pinh < 16 :=
      (by decide : ∀ sc ∈ pincfgaddr, sc.pinl < 16 → sc.pinh < 16) sc hmem (by omega)
    have := (rtsGetPinaddr_mem h).2.2
    omega
  obtain ⟨hbits, hstride⟩ := intBit_lt_sixteen sc hmem hpinl.1 hpinl.2
  obtain ⟨u, hu, hutype, huarmed⟩ :=
    armed_clearBit rtspc h (by omega : gpio < 32)
  obtain ⟨w, hw, hwtype, hwarmed⟩ :=
    armed_clearBit u h (by omega : gpio + intStride sc < 32)
  have hlow (gpio' : Nat) (edge' : Edge) (h' : rtsGetPinaddr gpio' = some sc) :
      intBit sc gpio' edge' < 16 := by
    obtain ⟨-, hlo', hhi'⟩ := rtsGetPinaddr_mem h'
    cases edge' with
    | rising => show gpio' - sc.pinl + intStride sc < 16; omega
    | falling => show gpio' - sc.pinl < 16; omega
  refine ⟨w, ?_, hwtype.trans hutype, fun gpio' edge' => ?_⟩
  · unfold RtsPinctrl.rtsGpioIrqDisable
    rw [h, Option.bind_some]
    dsimp only
    rw [if_pos (Nat.lt_trans hhi (by decide))]
    exact Option.bind_eq_some_iff.mpr ⟨u, hu, hw⟩
  · rw [hwarmed, huarmed, if_neg, if_neg]
    · rintro ⟨h', hbit⟩
      have := hlow gpio' edge' h'
      omega
    · rintro ⟨h', hbit⟩
      have := hlow gpio' edge' h'
      omega

/-! ## Runs -/

/-- The registers and the types agree with the abstract view. -/
structure Arms (rtspc : RtsPinctrl) (a : Arming) : Prop where
  type : rtspc.irqType = a.type
  armed : ∀ gpio < rtsMaxNgpio, ∀ edge, rtspc.armed gpio edge = a.armed gpio edge

variable {a : Arming} {op : IrqOp} {ops : List IrqOp}

/-- **The step.**  A step that stays clear of the holes is the abstract step. -/
theorem Arms.step (h : Arms rtspc a) (hpin : op.gpio < rtsMaxNgpio) (hok : ArmOk rtspc op) :
    ∃ rtspc', irqStep rtspc op = some rtspc' ∧ Arms rtspc' (a.step op) := by
  cases op with
  | setType gpio type =>
    refine ⟨_, rfl, ?_⟩
    have hvalid : (type = IRQ_TYPE_NONE ∨ type = IRQ_TYPE_EDGE_RISING ∨
        type = IRQ_TYPE_EDGE_FALLING ∨ type = IRQ_TYPE_EDGE_BOTH) ↔ type ≤ IRQ_TYPE_EDGE_BOTH := by
      unfold IRQ_TYPE_NONE IRQ_TYPE_EDGE_RISING IRQ_TYPE_EDGE_FALLING IRQ_TYPE_EDGE_BOTH
      omega
    unfold RtsPinctrl.rtsGpioIrqSetType Arming.step
    dsimp only
    by_cases htype : type ≤ IRQ_TYPE_EDGE_BOTH
    · rw [if_pos (hvalid.mpr htype), if_pos htype]
      exact ⟨congrArg (update · gpio type) h.type, h.armed⟩
    · rw [if_neg fun hv => htype (hvalid.mp hv), if_neg htype]
      exact h
  | enable gpio =>
    obtain ⟨sc, -, hsc⟩ := pincfgaddr_cover gpio hpin
    obtain ⟨rtspc', hrun, htype, harmed⟩ := armed_irqEnable rtspc hsc
    refine ⟨rtspc', hrun, htype.trans h.type, fun gpio' hgpio' edge' => ?_⟩
    rw [harmed]
    show _ = update a.armed gpio (fun edge => edge.Triggers (a.type gpio)) gpio' edge'
    by_cases heq : gpio' = gpio
    · subst heq
      rw [update_self, ← h.type]
      by_cases htrig : edge'.Triggers (rtspc.irqType gpio')
      · rw [if_pos ⟨rfl, htrig⟩, decide_eq_true htrig]
      · rw [if_neg fun hand => htrig hand.2, decide_eq_false htrig]
        cases edge' with
        | rising => exact Bool.eq_false_iff.mpr fun hset => htrig (hok.1 hset)
        | falling => exact Bool.eq_false_iff.mpr fun hset => htrig (hok.2 hset)
    · rw [if_neg fun hand => heq hand.1, update_of_ne heq]
      exact h.armed gpio' hgpio' edge'
  | disable gpio =>
    show ∃ rtspc', rtspc.rtsGpioIrqDisable gpio = some rtspc' ∧ Arms rtspc' _
    have hstep (rtspc' : RtsPinctrl) (htype : rtspc'.irqType = rtspc.irqType)
        (harmed : ∀ gpio' edge', rtspc'.armed gpio' edge' =
          if gpio' = gpio then false else rtspc.armed gpio' edge') :
        Arms rtspc' (a.step (.disable gpio)) := by
      refine ⟨htype.trans h.type, fun gpio' hgpio' edge' => ?_⟩
      rw [harmed]
      show _ = update a.armed gpio (fun _ => false) gpio' edge'
      by_cases heq : gpio' = gpio
      · rw [if_pos heq, heq, update_self]
      · rw [if_neg heq, update_of_ne heq]
        exact h.armed gpio' hgpio' edge'
    by_cases hfirst : gpio < 16
    · obtain ⟨rtspc', hrun, htype, harmed⟩ := armed_irqDisable_first rtspc hfirst
      exact ⟨rtspc', hrun, hstep rtspc' htype harmed⟩
    · obtain ⟨hrising, hfalling, hlt⟩ := hok.resolve_left hfirst
      obtain ⟨rtspc', hrun, htype, harmed⟩ :=
        armed_irqDisable_idle rtspc (Nat.le_of_not_lt hfirst) hlt
      refine ⟨rtspc', hrun, hstep rtspc' htype fun gpio' edge' => ?_⟩
      rw [harmed]
      by_cases heq : gpio' = gpio
      · subst heq
        rw [if_pos rfl]
        cases edge' with
        | rising => exact hrising
        | falling => exact hfalling
      · rw [if_neg heq]

theorem Arms.run (h : Arms rtspc a) (hpins : ∀ op ∈ ops, op.gpio < rtsMaxNgpio)
    (hok : Along irqStep ArmOk rtspc ops) :
    ∃ rtspc', exec irqStep rtspc ops = some rtspc' ∧
      Arms rtspc' (ops.foldl Arming.step a) := by
  induction ops generalizing rtspc a with
  | nil => exact ⟨rtspc, rfl, h⟩
  | cons op ops ih =>
    obtain ⟨u, hu, harms⟩ := h.step (hpins op List.mem_cons_self) hok.1
    obtain ⟨rtspc', hrun, hend⟩ :=
      ih harms (fun op' hmem => hpins op' (List.mem_cons_of_mem op hmem)) (hok.2 u hu)
    exact ⟨rtspc', exec_cons.mpr ⟨u, hu, hrun⟩, hend⟩

/-- **Interrupt arming.**  From cleared `GPIO_INT_EN` registers, every run that stays clear of the
holes is defined, and leaves every pin armed for exactly the edges that the operations say: those of
its type at its last enable, none if a disable came after it, whatever was done to other pins. -/
theorem armed_of_armOk (hclear : ∀ sc ∈ pincfgaddr, rtspc.regs (sc.pinaddr + pinregsGpioIntEn) = 0)
    (hpins : ∀ op ∈ ops, op.gpio < rtsMaxNgpio) (hok : Along irqStep ArmOk rtspc ops) :
    ∃ rtspc', exec irqStep rtspc ops = some rtspc' ∧
      ∀ gpio < rtsMaxNgpio, ∀ edge,
        rtspc'.armed gpio edge = (Arming.run rtspc.irqType ops).armed gpio edge := by
  have hstart : Arms rtspc ⟨rtspc.irqType, fun _ _ => false⟩ := by
    refine ⟨rfl, fun gpio hgpio edge => ?_⟩
    obtain ⟨sc, hmem, hsc⟩ := pincfgaddr_cover gpio hgpio
    rw [armed_eq hsc]
    unfold RtsPinctrl.readl
    rw [hclear sc hmem, ite_self]
    exact BitVec.getLsbD_zero
  obtain ⟨rtspc', hrun, harms⟩ := hstart.run hpins hok
  exact ⟨rtspc', hrun, harms.armed⟩

/-- Pin 3 is armed for one edge, then for both, and disarmed; pin 16 is armed. -/
def armFirstGroup : List IrqOp :=
  [.setType 3 IRQ_TYPE_EDGE_RISING, .enable 3, .setType 16 IRQ_TYPE_EDGE_BOTH, .enable 16,
    .setType 3 IRQ_TYPE_EDGE_BOTH, .enable 3, .disable 3]

theorem armed_armFirstGroup :
    ∃ rtspc', exec irqStep cleared armFirstGroup = some rtspc' ∧
      ∀ gpio < rtsMaxNgpio, ∀ edge,
        rtspc'.armed gpio edge = (Arming.run cleared.irqType armFirstGroup).armed gpio edge :=
  armed_of_armOk (fun _ _ => rfl) (by decide) (by decide +kernel)

/-- **The holes.**  After a disable of pin 16 it is still armed; and after its type changed from
rising to falling, an enable of pin 0 leaves it armed for both. -/
theorem not_armed_disableEnable :
    (exec irqStep cleared [.setType 16 IRQ_TYPE_EDGE_RISING, .enable 16, .disable 16]).map
        (fun rtspc => rtspc.armed 16 .rising) = some true ∧
      (Arming.run cleared.irqType
        [.setType 16 IRQ_TYPE_EDGE_RISING, .enable 16, .disable 16]).armed 16 .rising = false ∧
      (exec irqStep cleared [.setType 0 IRQ_TYPE_EDGE_RISING, .enable 0,
        .setType 0 IRQ_TYPE_EDGE_FALLING, .enable 0]).map
        (fun rtspc => rtspc.armed 0 .rising) = some true ∧
      (Arming.run cleared.irqType [.setType 0 IRQ_TYPE_EDGE_RISING, .enable 0,
        .setType 0 IRQ_TYPE_EDGE_FALLING, .enable 0]).armed 0 .rising = false := by
  decide +kernel

end RealtekIpcam.Pinctrl
