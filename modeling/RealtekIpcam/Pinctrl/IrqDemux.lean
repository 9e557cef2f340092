import RealtekIpcam.Lib.Interrupt
import RealtekIpcam.Pinctrl.IrqArming

/-!
# The interrupt handler finds the edges that fired

All pins share one interrupt.  `rts_irq_handler` goes through the groups, acknowledges what is
pending in the group's `GPIO_INT` register, and hands every bit that is also enabled to the handler
of its pin.  It reads a pin off the position of a bit, where `rts_gpio_irq_enable` goes from the pin
to the position: `irqPin` is the one, `intBit` the other, and on the bits of a group's pins they are
inverse to each other.

The handler's run is the list of what it does to the outside.  `RtsPinctrl` holds what the registers
read; every one of them is read once in a run, so what the handlers of the pins do to the registers
of later groups is covered by the choice of `rtspc`.
-/

namespace RealtekIpcam.Pinctrl

open BitField Interrupt

/-! ## The driver -/

/-- The offset of the status register in `struct pinregs`. -/
def pinregsGpioInt : Nat := 0x10

/-- A write of a status register, and a call of `generic_handle_irq`. -/
inductive IrqAction where
  | ack (reg : Nat) (val : Word)
  | handle (irqno : Nat)
  deriving DecidableEq

/-- The handler's variable `handled`, and what it has done. -/
abbrev IrqRun := Bool × List IrqAction

/-- The two copies of `GENMASK (pinh - pinl) 0`. -/
def intMask (sc : SharepinCfgAddr) : Word :=
  let mask := fieldMask (sc.pinh - sc.pinl + 1)
  mask <<< intStride sc ||| mask

/-- The pin that the handler reads off the position of a bit. -/
def irqPin (sc : SharepinCfgAddr) (offset : Nat) : Nat :=
  let bs := intStride sc
  let irqno := if offset ≥ bs then offset - bs else offset
  irqno + sc.pinl

/-- One round of the inner loop.  `revmap` is `irq_linear_revmap`, which is 0 for a pin that is not
mapped. -/
def handleBit (revmap : Nat → Nat) (sc : SharepinCfgAddr) (run : IrqRun) (offset : Nat) : IrqRun :=
  let irqno := revmap (irqPin sc offset)
  if irqno ≠ 0 then (true, run.2 ++ [.handle irqno]) else run

namespace RtsPinctrl

variable (rtspc : RtsPinctrl) (revmap : Nat → Nat)

/-- One round of the outer loop. -/
def handleGroup (run : IrqRun) (entry : SharepinCfgAddr) : Option IrqRun :=
  (rtsGetPinaddr entry.pinl).map fun sc =>
    let val1 := rtspc.readl (sc.pinaddr + pinregsGpioIntEn) &&& intMask sc
    let val2 := rtspc.readl (sc.pinaddr + pinregsGpioInt) &&& intMask sc
    (setBits (val2 &&& val1)).foldl (handleBit revmap sc)
      (run.1, run.2 ++ [.ack (sc.pinaddr + pinregsGpioInt) val2])

def rtsIrqHandler : Option (IrqReturn × List IrqAction) :=
  (pincfgaddr.foldlM (rtspc.handleGroup revmap) (false, [])).map fun run =>
    (if run.1 then .handled else .none, run.2)

end RtsPinctrl

/-! ## The edges that fire -/

def RtsPinctrl.pending (rtspc : RtsPinctrl) (gpio : Nat) (edge : Edge) : Bool :=
  match rtsGetPinaddr gpio with
  | some sc => (rtspc.readl (sc.pinaddr + pinregsGpioInt)).getLsbD (intBit sc gpio edge)
  | none => false

/-- The edge is pending and enabled, and the pin is mapped. -/
def RtsPinctrl.Fires (rtspc : RtsPinctrl) (revmap : Nat → Nat) (gpio : Nat) (edge : Edge) : Prop :=
  revmap gpio ≠ 0 ∧ rtspc.pending gpio edge = true ∧ rtspc.armed gpio edge = true

/-- The interrupts that a run handles, in order. -/
def handledIrqs (actions : List IrqAction) : List Nat :=
  actions.filterMap fun
    | .handle irqno => some irqno
    | .ack _ _ => none

/-- The registers that a run writes, with their values. -/
def acks (actions : List IrqAction) : List (Nat × Word) :=
  actions.filterMap fun
    | .ack reg val => some (reg, val)
    | .handle _ => none

/-- The bit belongs to an edge of a pin of the group. -/
def IsPinBit (sc : SharepinCfgAddr) (bit : Nat) : Prop :=
  ∃ gpio edge, rtsGetPinaddr gpio = some sc ∧ intBit sc gpio edge = bit

/-! ## Positions and pins -/

variable {rtspc : RtsPinctrl} {revmap : Nat → Nat} {gpio bit : Nat} {sc : SharepinCfgAddr}
  {edge : Edge} {actions actions' : List IrqAction}

def bitEdge (sc : SharepinCfgAddr) (bit : Nat) : Edge :=
  if bit ≥ intStride sc then .rising else .falling

theorem rtsGetPinaddr_of_mem :
    ∀ sc ∈ pincfgaddr, ∀ pin ∈ List.range' sc.pinl (sc.pinh - sc.pinl + 1),
      rtsGetPinaddr pin = some sc := by
  decide +kernel

theorem rtsGetPinaddr_eq_some :
    rtsGetPinaddr gpio = some sc ↔ sc ∈ pincfgaddr ∧ sc.pinl ≤ gpio ∧ gpio ≤ sc.pinh := by
  refine ⟨rtsGetPinaddr_mem, fun ⟨hmem, hlo, hhi⟩ => ?_⟩
  exact rtsGetPinaddr_of_mem sc hmem gpio (List.mem_range'_1.mpr ⟨hlo, by omega⟩)

theorem pinl_le_pinh : ∀ sc ∈ pincfgaddr, sc.pinl ≤ sc.pinh := by
  decide

theorem irqPin_intBit (h : rtsGetPinaddr gpio = some sc) (edge : Edge) :
    irqPin sc (intBit sc gpio edge) = gpio := by
  obtain ⟨hmem, hlo, hhi⟩ := rtsGetPinaddr_mem h
  have hbounds := intStride_bounds sc hmem
  cases edge with
  | rising =>
    show (if gpio - sc.pinl + intStride sc ≥ intStride sc
      then gpio - sc.pinl + intStride sc - intStride sc else _) + sc.pinl = gpio
    rw [if_pos (Nat.le_add_left _ _)]
    omega
  | falling =>
    show (if gpio - sc.pinl ≥ intStride sc then _ else gpio - sc.pinl) + sc.pinl = gpio
    rw [if_neg (by omega)]
    omega

theorem getLsbD_intMask (hmem : sc ∈ pincfgaddr) (hbit : bit < 32) :
    (intMask sc).getLsbD bit =
      decide (bit ≤ sc.pinh - sc.pinl ∨
        intStride sc ≤ bit ∧ bit - intStride sc ≤ sc.pinh - sc.pinl) := by
  have hwidth := pincfgaddr_width sc hmem
  have hw : sc.pinh - sc.pinl + 1 < 32 := by omega
  show (fieldMask _ <<< intStride sc ||| fieldMask _).getLsbD bit = _
  rw [BitVec.getLsbD_or, BitVec.getLsbD_shiftLeft, getLsbD_fieldMask hw, getLsbD_fieldMask hw]
  rw [Bool.eq_iff_iff]
  simp only [Bool.or_eq_true, Bool.and_eq_true, Bool.not_eq_true', decide_eq_true_eq,
    decide_eq_false_iff_not]
  omega

theorem intBit_irqPin (hmem : sc ∈ pincfgaddr) (hbit : bit < 32)
    (hmask : (intMask sc).getLsbD bit = true) :
    rtsGetPinaddr (irqPin sc bit) = some sc ∧
      intBit sc (irqPin sc bit) (bitEdge sc bit) = bit := by
  have hbounds := intStride_bounds sc hmem
  have hpin := pinl_le_pinh sc hmem
  rw [getLsbD_intMask hmem hbit, decide_eq_true_eq] at hmask
  by_cases hge : bit ≥ intStride sc
  · have hpinEq : irqPin sc bit = bit - intStride sc + sc.pinl :=
      congrArg (· + sc.pinl) (if_pos hge)
    have hedge : bitEdge sc bit = .rising := if_pos hge
    rw [hpinEq, hedge]
    refine ⟨rtsGetPinaddr_eq_some.mpr ⟨hmem, by omega, by omega⟩, ?_⟩
    show bit - intStride sc + sc.pinl - sc.pinl + intStride sc = bit
    omega
  · have hpinEq : irqPin sc bit = bit + sc.pinl := congrArg (· + sc.pinl) (if_neg hge)
    have hedge : bitEdge sc bit = .falling := if_neg hge
    rw [hpinEq, hedge]
    refine ⟨rtsGetPinaddr_eq_some.mpr ⟨hmem, by omega, by omega⟩, ?_⟩
    show bit + sc.pinl - sc.pinl = bit
    omega

theorem isPinBit_iff (hmem : sc ∈ pincfgaddr) :
    IsPinBit sc bit ↔ bit < 32 ∧ (intMask sc).getLsbD bit = true := by
  constructor
  · rintro ⟨gpio, edge, h, rfl⟩
    obtain ⟨-, hlo, hhi⟩ := rtsGetPinaddr_mem h
    refine ⟨intBit_lt h, ?_⟩
    rw [getLsbD_intMask hmem (intBit_lt h), decide_eq_true_eq]
    cases edge with
    | rising =>
      right
      show intStride sc ≤ gpio - sc.pinl + intStride sc ∧
        gpio - sc.pinl + intStride sc - intStride sc ≤ _
      omega
    | falling =>
      left
      show gpio - sc.pinl ≤ _
      omega
  · rintro ⟨hbit, hmask⟩
    exact ⟨_, _, intBit_irqPin hmem hbit hmask⟩

/-! ## What a round does -/

/-- What the handler acknowledges in a group. -/
def RtsPinctrl.ackVal (rtspc : RtsPinctrl) (sc : SharepinCfgAddr) : Word :=
  rtspc.readl (sc.pinaddr + pinregsGpioInt) &&& intMask sc

/-- The edges of a group whose pins are called, in the order of their bits. -/
def RtsPinctrl.firing (rtspc : RtsPinctrl) (revmap : Nat → Nat) (sc : SharepinCfgAddr) :
    List (Nat × Edge) :=
  ((setBits (rtspc.ackVal sc &&&
    (rtspc.readl (sc.pinaddr + pinregsGpioIntEn) &&& intMask sc))).map
      fun bit => (irqPin sc bit, bitEdge sc bit)).filter fun p => revmap p.1 ≠ 0

@[simp] theorem handledIrqs_append :
    handledIrqs (actions ++ actions') = handledIrqs actions ++ handledIrqs actions' :=
  List.filterMap_append

@[simp] theorem acks_append : acks (actions ++ actions') = acks actions ++ acks actions' :=
  List.filterMap_append

theorem foldl_handleBit (revmap : Nat → Nat) (sc : SharepinCfgAddr) (bits : List Nat)
    (run : IrqRun) :
    handledIrqs (bits.foldl (handleBit revmap sc) run).2 = handledIrqs run.2 ++
        ((bits.map fun bit => (irqPin sc bit, bitEdge sc bit)).filter
          fun p => revmap p.1 ≠ 0).map (fun p => revmap p.1) ∧
      acks (bits.foldl (handleBit revmap sc) run).2 = acks run.2 := by
  induction bits generalizing run with
  | nil => exact ⟨(List.append_nil _).symm, rfl⟩
  | cons bit bits ih =>
    obtain ⟨hcalls, hacks⟩ := ih (handleBit revmap sc run bit)
    rw [List.foldl_cons, hcalls, hacks, List.map_cons]
    by_cases hmap : revmap (irqPin sc bit) ≠ 0
    · have hstep : handleBit revmap sc run bit =
          (true, run.2 ++ [.handle (revmap (irqPin sc bit))]) := if_pos hmap
      rw [hstep, List.filter_cons_of_pos (by simpa using hmap)]
      simp [handledIrqs, acks]
    · have hstep : handleBit revmap sc run bit = run := if_neg hmap
      rw [hstep, List.filter_cons_of_neg (by simpa using hmap)]
      exact ⟨rfl, rfl⟩

variable (rtspc revmap) in
/-- **A round.**  The handler calls the mapped pins of the edges that fire in the group, and makes
one acknowledgement. -/
theorem handleGroup_spec (hmem : sc ∈ pincfgaddr) (run : IrqRun) :
    ∃ run', rtspc.handleGroup revmap run sc = some run' ∧
      handledIrqs run'.2 = handledIrqs run.2 ++ (rtspc.firing revmap sc).map (revmap ·.1) ∧
      acks run'.2 = acks run.2 ++ [(sc.pinaddr + pinregsGpioInt, rtspc.ackVal sc)] := by
  have hsc : rtsGetPinaddr sc.pinl = some sc :=
    rtsGetPinaddr_eq_some.mpr ⟨hmem, Nat.le_refl _, pinl_le_pinh sc hmem⟩
  refine ⟨_, congrArg (Option.map _) hsc, ?_, ?_⟩
  · rw [(foldl_handleBit _ _ _ _).1, handledIrqs_append]
    exact congrArg (· ++ _) (List.append_nil _)
  · rw [(foldl_handleBit _ _ _ _).2, acks_append]
    rfl

variable (rtspc revmap) in
theorem foldlM_handleGroup {entries : List SharepinCfgAddr} (hmem : entries ⊆ pincfgaddr)
    (run : IrqRun) :
    ∃ run', entries.foldlM (rtspc.handleGroup revmap) run = some run' ∧
      handledIrqs run'.2 =
        handledIrqs run.2 ++ (entries.flatMap (rtspc.firing revmap)).map (revmap ·.1) ∧
      acks run'.2 =
        acks run.2 ++ entries.map fun sc => (sc.pinaddr + pinregsGpioInt, rtspc.ackVal sc) := by
  induction entries generalizing run with
  | nil => exact ⟨run, rfl, (List.append_nil _).symm, (List.append_nil _).symm⟩
  | cons sc entries ih =>
    obtain ⟨hsc, hrest⟩ := List.cons_subset.mp hmem
    obtain ⟨mid, hmid, hcalls, hacks⟩ := handleGroup_spec rtspc revmap hsc run
    obtain ⟨run', hrun, hcalls', hacks'⟩ := ih hrest mid
    refine ⟨run', ?_, ?_, ?_⟩
    · rw [List.foldlM_cons, hmid]
      exact hrun
    · rw [hcalls', hcalls, List.flatMap_cons, List.map_append, List.append_assoc]
    · rw [hacks', hacks, List.map_cons, List.append_assoc]
      rfl

/-! ## The edges of the rounds -/

theorem mem_firing (hmem : sc ∈ pincfgaddr) :
    (gpio, edge) ∈ rtspc.firing revmap sc ↔
      rtsGetPinaddr gpio = some sc ∧ rtspc.Fires revmap gpio edge := by
  unfold RtsPinctrl.firing
  rw [List.mem_filter, List.mem_map]
  constructor
  · rintro ⟨⟨bit, hbit, heq⟩, hmap⟩
    obtain ⟨rfl, rfl⟩ := Prod.mk.inj heq
    obtain ⟨hlt, hset⟩ := mem_setBits.mp hbit
    unfold RtsPinctrl.ackVal at hset
    simp only [BitVec.getLsbD_and, Bool.and_eq_true] at hset
    obtain ⟨⟨hpend, hmask⟩, hen, -⟩ := hset
    obtain ⟨hpin, hpos⟩ := intBit_irqPin hmem hlt hmask
    refine ⟨hpin, of_decide_eq_true hmap, ?_, ?_⟩
    · unfold RtsPinctrl.pending
      rw [hpin]
      dsimp only
      rw [hpos, hpend]
    · rw [armed_eq hpin, hpos, hen]
  · rintro ⟨hpin, hmap, hpend, harmed⟩
    have hmask := ((isPinBit_iff hmem).mp ⟨gpio, edge, hpin, rfl⟩).2
    refine ⟨⟨intBit sc gpio edge, mem_setBits.mpr ⟨intBit_lt hpin, ?_⟩, ?_⟩, decide_eq_true hmap⟩
    · unfold RtsPinctrl.pending at hpend
      rw [hpin] at hpend
      rw [armed_eq hpin] at harmed
      unfold RtsPinctrl.ackVal
      simp only [BitVec.getLsbD_and, Bool.and_eq_true]
      exact ⟨⟨hpend, hmask⟩, harmed, hmask⟩
    · have hpos := intBit_irqPin hmem (intBit_lt hpin) hmask
      rw [irqPin_intBit hpin] at hpos ⊢
      exact Prod.ext rfl ((intBit_inj hpin hpin).mp hpos.2).2

theorem nodup_firing (hmem : sc ∈ pincfgaddr) : (rtspc.firing revmap sc).Nodup := by
  refine List.Nodup.filter _ (List.Nodup.map_on ?_ (List.nodup_range.filter _))
  intro bit hbit bit' hbit' heq
  have hmask : ∀ bit ∈ setBits (rtspc.ackVal sc &&&
      (rtspc.readl (sc.pinaddr + pinregsGpioIntEn) &&& intMask sc)),
      intBit sc (irqPin sc bit) (bitEdge sc bit) = bit := by
    intro bit hbit
    obtain ⟨hlt, hset⟩ := mem_setBits.mp hbit
    simp only [BitVec.getLsbD_and, Bool.and_eq_true] at hset
    exact (intBit_irqPin hmem hlt hset.2.2).2
  obtain ⟨hpin, hedge⟩ := Prod.mk.inj heq
  calc bit = intBit sc (irqPin sc bit) (bitEdge sc bit) := (hmask bit hbit).symm
    _ = intBit sc (irqPin sc bit') (bitEdge sc bit') := by rw [hpin, hedge]
    _ = bit' := hmask bit' hbit'

theorem nodup_flatMap_firing : (pincfgaddr.flatMap (rtspc.firing revmap)).Nodup := by
  refine List.nodup_flatMap.mpr ⟨fun sc hmem => nodup_firing hmem, ?_⟩
  have hnodup : pincfgaddr.Nodup := by decide
  refine hnodup.imp_of_mem fun {sc sc'} hmem hmem' hne => ?_
  rintro ⟨gpio, edge⟩ hfire hfire'
  have hsc := ((mem_firing hmem).mp hfire).1
  have hsc' := ((mem_firing hmem').mp hfire').1
  exact hne (Option.some_inj.mp (hsc.symm.trans hsc'))

theorem mem_flatMap_firing :
    (gpio, edge) ∈ pincfgaddr.flatMap (rtspc.firing revmap) ↔ rtspc.Fires revmap gpio edge := by
  rw [List.mem_flatMap]
  constructor
  · rintro ⟨sc, hmem, hfire⟩
    exact ((mem_firing hmem).mp hfire).2
  · intro hfires
    cases hsc : rtsGetPinaddr gpio with
    | none =>
      have hpend := hfires.2.1
      unfold RtsPinctrl.pending at hpend
      rw [hsc] at hpend
      cases hpend
    | some sc =>
      have hmem := (rtsGetPinaddr_mem hsc).1
      exact ⟨sc, hmem, (mem_firing hmem).mpr ⟨hsc, hfires⟩⟩

theorem getLsbD_ackVal (hmem : sc ∈ pincfgaddr) (bit : Nat) :
    (rtspc.ackVal sc).getLsbD bit = true ↔
      (rtspc.readl (sc.pinaddr + pinregsGpioInt)).getLsbD bit = true ∧ IsPinBit sc bit := by
  unfold RtsPinctrl.ackVal
  rw [BitVec.getLsbD_and, Bool.and_eq_true, isPinBit_iff hmem]
  refine ⟨fun ⟨hpend, hmask⟩ => ⟨hpend, ?_, hmask⟩, fun ⟨hpend, _, hmask⟩ => ⟨hpend, hmask⟩⟩
  exact BitVec.lt_of_getLsbD hpend

variable (rtspc) in
theorem regs_ifTriggers (h : rtsGetPinaddr gpio = some sc) (edge : Edge) :
    ∃ rtspc', (if edge.Triggers (rtspc.irqType gpio) then
        rtspc.rtsSetRegBit (intBit sc gpio edge) (sc.pinaddr + pinregsGpioIntEn)
      else some rtspc) = some rtspc' ∧ rtspc'.irqType = rtspc.irqType ∧
      ∀ reg, ∀ bit < 32, (rtspc'.regs reg).getLsbD bit = true ↔
        (rtspc.regs reg).getLsbD bit = true ∨ reg = sc.pinaddr + pinregsGpioIntEn ∧
          edge.Triggers (rtspc.irqType gpio) ∧ intBit sc gpio edge = bit := by
  by_cases htrig : edge.Triggers (rtspc.irqType gpio)
  · refine ⟨_, (if_pos htrig).trans (if_pos (intBit_lt h)), rfl, fun reg bit hbit => ?_⟩
    by_cases hreg : reg = sc.pinaddr + pinregsGpioIntEn
    · subst hreg
      have hread : rtspc.readl (sc.pinaddr + pinregsGpioIntEn) =
          rtspc.regs (sc.pinaddr + pinregsGpioIntEn) :=
        if_neg (intEn_notMem sc (rtsGetPinaddr_mem h).1)
      rw [RtsPinctrl.regs_writel_self, getLsbD_setBit hbit, hread]
      by_cases hpos : bit = intBit sc gpio edge
      · simp [hpos, htrig]
      · simp [hpos, Ne.symm hpos]
    · rw [RtsPinctrl.regs_writel_of_ne _ hreg]
      simp [hreg]
  · refine ⟨rtspc, if_neg htrig, rfl, fun reg bit _ => ?_⟩
    simp [htrig]

variable (rtspc) in
/-- An enable sets the positions of the edges of the pin's type, and changes no other bit of any
register. -/
theorem regs_irqEnable (h : rtsGetPinaddr gpio = some sc) :
    ∃ rtspc', rtspc.rtsGpioIrqEnable gpio = some rtspc' ∧
      ∀ reg, ∀ bit < 32, (rtspc'.regs reg).getLsbD bit = true ↔
        (rtspc.regs reg).getLsbD bit = true ∨ reg = sc.pinaddr + pinregsGpioIntEn ∧
          ∃ edge : Edge, edge.Triggers (rtspc.irqType gpio) ∧ intBit sc gpio edge = bit := by
  obtain ⟨hmem, hlo, hhi⟩ := rtsGetPinaddr_mem h
  have hgpio : gpio < rtsMaxNgpio := Nat.lt_of_le_of_lt hhi (pincfgaddr_width sc hmem).2
  obtain ⟨u, hu, hutype, hubits⟩ := regs_ifTriggers rtspc h .rising
  obtain ⟨w, hw, -, hwbits⟩ := regs_ifTriggers u h .falling
  refine ⟨w, ?_, fun reg bit hbit => ?_⟩
  · unfold RtsPinctrl.rtsGpioIrqEnable
    rw [h, Option.bind_some]
    dsimp only
    rw [if_pos hgpio]
    exact Option.bind_eq_some_iff.mpr ⟨u, hu, hw⟩
  · rw [hwbits reg bit hbit, hubits reg bit hbit, hutype, or_assoc, ← and_or_left]
    refine or_congr_right (and_congr_right fun _ => ⟨?_, ?_⟩)
    · rintro (hedge | hedge)
      · exact ⟨.rising, hedge⟩
      · exact ⟨.falling, hedge⟩
    · rintro ⟨edge, hedge⟩
      cases edge with
      | rising => exact .inl hedge
      | falling => exact .inr hedge

/-- **Demultiplexing.**  Whatever the registers read, a run of the handler is defined.  It calls the
interrupts of the edges that fire, one call for each, and no other.  In every group it acknowledges
the pending bits of the group's pins, and no other.  And it reads a pin off the position of its edge
that `rts_gpio_irq_enable` sets. -/
theorem rtsIrqHandler_demux (rtspc : RtsPinctrl) (revmap : Nat → Nat) :
    (∃ ret actions, rtspc.rtsIrqHandler revmap = some (ret, actions) ∧
      (∃ edges : List (Nat × Edge), edges.Nodup ∧
        (∀ gpio edge, (gpio, edge) ∈ edges ↔ rtspc.Fires revmap gpio edge) ∧
        handledIrqs actions = edges.map (revmap ·.1)) ∧
      ∃ val : SharepinCfgAddr → Word,
        acks actions = pincfgaddr.map (fun sc => (sc.pinaddr + pinregsGpioInt, val sc)) ∧
        ∀ sc ∈ pincfgaddr, ∀ bit, (val sc).getLsbD bit = true ↔
          (rtspc.readl (sc.pinaddr + pinregsGpioInt)).getLsbD bit = true ∧ IsPinBit sc bit) ∧
    ∀ gpio sc, rtsGetPinaddr gpio = some sc →
      (∀ edge, irqPin sc (intBit sc gpio edge) = gpio) ∧
      ∃ rtspc', rtspc.rtsGpioIrqEnable gpio = some rtspc' ∧
        ∀ reg, ∀ bit < 32, (rtspc'.regs reg).getLsbD bit = true ↔
          (rtspc.regs reg).getLsbD bit = true ∨ reg = sc.pinaddr + pinregsGpioIntEn ∧
            ∃ edge : Edge, edge.Triggers (rtspc.irqType gpio) ∧ intBit sc gpio edge = bit := by
  refine ⟨?_, fun gpio sc h => ⟨irqPin_intBit h, regs_irqEnable rtspc h⟩⟩
  obtain ⟨run, hrun, hcalls, hacks⟩ :=
    foldlM_handleGroup rtspc revmap (List.Subset.refl pincfgaddr) (false, [])
  refine ⟨if run.1 then .handled else .none, run.2, ?_, ?_, ?_⟩
  · unfold RtsPinctrl.rtsIrqHandler
    rw [hrun]
    rfl
  · exact ⟨_, nodup_flatMap_firing, fun _ _ => mem_flatMap_firing, hcalls⟩
  · exact ⟨rtspc.ackVal, hacks, fun sc hmem bit => getLsbD_ackVal hmem bit⟩

/-- With every bit set and every pin mapped, both edges of all the pins are handled. -/
example : (RtsPinctrl.rtsIrqHandler { cleared with regs := fun _ => 0xffffffff } (· + 1)).map
    (fun r => (r.1, (handledIrqs r.2).length)) = some (.handled, 178) := by
  decide +kernel

end RealtekIpcam.Pinctrl
