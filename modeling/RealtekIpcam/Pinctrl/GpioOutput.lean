import RealtekIpcam.Lib.Runs
import RealtekIpcam.Pinctrl.Driver

/-!
# The level of an output

A pin that is an output is driven by its bit of the group's value register.  In most groups
the driver changes that bit by read-modify-write; three value registers read 0, and there it
keeps a shadow byte that it writes as a whole.

`Outputs` is what the registers and the shadow bytes stand for: a level and a direction for
every pin. `Drives` relates the two, `Drives.step` says that every operation of the driver is
the abstract operation, and `gpioGet_eq_lastSet` follows for every run: an output drives the
level last set, and reads as that level.
-/

namespace RealtekIpcam.Pinctrl

open BitField Function

/-! ## The abstract view -/

/-- The operations on a pin's level and direction. -/
inductive GpioOp where
  | set (gpio : Nat) (value : Int)
  | directionInput (gpio : Nat)
  | directionOutput (gpio : Nat) (value : Int)
  | setDirection (gpio : Nat) (input : Bool)
  deriving DecidableEq

def GpioOp.gpio : GpioOp → Nat
  | .set gpio _ => gpio
  | .directionInput gpio => gpio
  | .directionOutput gpio _ => gpio
  | .setDirection gpio _ => gpio

/-- A level and a direction for every pin. -/
structure Outputs where
  level : Nat → Bool
  output : Nat → Bool

namespace Outputs

def setLevel (o : Outputs) (gpio : Nat) (high : Bool) : Outputs :=
  { o with level := update o.level gpio high }

def setOutput (o : Outputs) (gpio : Nat) (output : Bool) : Outputs :=
  { o with output := update o.output gpio output }

def step (o : Outputs) : GpioOp → Outputs
  | .set gpio value => o.setLevel gpio (value ≠ 0)
  | .directionInput gpio => o.setOutput gpio false
  | .directionOutput gpio value => (o.setLevel gpio (value ≠ 0)).setOutput gpio true
  | .setDirection gpio input => o.setOutput gpio !input

/-- The levels and directions after a row of operations, when all pins are low inputs before. -/
def run (ops : List GpioOp) : Outputs := ops.foldl step ⟨fun _ => false, fun _ => false⟩

end Outputs

/-! ## The driver -/

/-- One operation of the driver. -/
def gpioStep (rtspc : RtsPinctrl) : GpioOp → Option RtsPinctrl
  | .set gpio value => rtspc.rtsGpioSet gpio value
  | .directionInput gpio => (rtspc.rtsGpioDirectionInput gpio).map Prod.snd
  | .directionOutput gpio value => (rtspc.rtsGpioDirectionOutput gpio value).map Prod.snd
  | .setDirection gpio input => (rtspc.rtsPmxGpioSetDirection gpio input).map Prod.snd

/-- The bit of a pin in one of the registers of its group. -/
def pinBit (regs : Regs) (off gpio : Nat) : Bool :=
  match rtsGetPinaddr gpio with
  | some sc => (regs (sc.pinaddr + off)).getLsbD (gpio - sc.pinl)
  | none => false

namespace RtsPinctrl

/-- The level that the value register gives a pin.  This is what was written, not what is read. -/
def driven (rtspc : RtsPinctrl) (gpio : Nat) : Bool := pinBit rtspc.regs pinregsGpioValue gpio

/-- The output-enable bit of a pin. -/
def outputEnabled (rtspc : RtsPinctrl) (gpio : Nat) : Bool :=
  pinBit rtspc.readl pinregsGpioOe gpio

/-- The shadow bytes are what the three value registers hold. -/
structure Shadowed (rtspc : RtsPinctrl) : Prop where
  adda : rtspc.regs (audioAddaGpioOe + pinregsGpioValue) = rtspc.audioAddaGpioValue.setWidth 32
  usb0 : rtspc.regs (usb0GpioOe + pinregsGpioValue) = rtspc.usb0GpioValue.setWidth 32
  usb1 : rtspc.regs (usb1GpioOe + pinregsGpioValue) = rtspc.usb1GpioValue.setWidth 32

end RtsPinctrl

variable {rtspc rtspc' : RtsPinctrl} {gpio gpio' bf i : Nat} {sc sc' : SharepinCfgAddr}
  {value : Int}

/-! ## Setting a level -/

theorem getLsbD_shadowSet {shadow : BitVec 8} (hbf : bf < 8) :
    ((shadowSet shadow bf value).setWidth 32).getLsbD i =
      if i = bf then decide (value ≠ 0) else (shadow.setWidth 32).getLsbD i := by
  rw [BitVec.getLsbD_setWidth, BitVec.getLsbD_setWidth]
  unfold shadowSet
  by_cases hi : i < 8
  · have hone : (1#8 <<< bf).getLsbD i = decide (i = bf) := getLsbD_one_shiftLeft hi
    have hi32 : i < 32 := by omega
    by_cases hv : value = 0
    · simp only [hv, ne_eq, not_true_eq_false, if_false, BitVec.getLsbD_and, BitVec.getLsbD_not,
        hone, hi, hi32, decide_true, Bool.true_and]
      by_cases heq : i = bf <;> simp [heq]
    · simp only [hv, ne_eq, not_false_eq_true, if_true, BitVec.getLsbD_or, hone, hi32, decide_true,
        Bool.true_and]
      by_cases heq : i = bf <;> simp [heq]
  · have hne : ¬ i = bf := by omega
    rw [if_neg hne, BitVec.getLsbD_of_ge _ _ (by omega), BitVec.getLsbD_of_ge _ _ (by omega)]

theorem shadow_groups : ∀ sc ∈ pincfgaddr,
    (sc.pinl = 65 → sc.pinaddr = audioAddaGpioOe) ∧ (sc.pinl = 78 → sc.pinaddr = usb0GpioOe) ∧
      (sc.pinl = 80 → sc.pinaddr = usb1GpioOe) ∧
      (sc.pinl = 65 ∨ sc.pinl = 78 ∨ sc.pinl = 80 → sc.pinh < sc.pinl + 8) ∧
      (¬ sc.pinl = 65 → ¬ sc.pinl = 78 → ¬ sc.pinl = 80 →
        sc.pinaddr + pinregsGpioValue ∉ readsZero) := by
  decide

theorem getLsbD_update {regs : Regs} {reg : Nat} {v : Word} {high : Bool}
    (hv : ∀ i < 32, v.getLsbD i = if i = bf then high else (regs reg).getLsbD i) (r : Nat)
    (hi : i < 32) : (update regs reg v r).getLsbD i =
      if r = reg ∧ i = bf then high else (regs r).getLsbD i := by
  by_cases hr : r = reg
  · subst hr
    rw [update_self, hv i hi]
    simp only [true_and]
  · rw [update_of_ne hr, if_neg fun heq => hr heq.1]

theorem RtsPinctrl.Shadowed.writel (hshadow : rtspc.Shadowed) {reg : Nat}
    (hreg : reg ∉ readsZero) (v : Word) :
    (rtspc.writel v reg).Shadowed := by
  have hne : ∀ r ∈ readsZero, r ≠ reg := fun r hr heq => hreg (heq ▸ hr)
  constructor
  · exact (rtspc.regs_writel_of_ne (hne _ (by decide)) v).trans hshadow.adda
  · exact (rtspc.regs_writel_of_ne (hne _ (by decide)) v).trans hshadow.usb0
  · exact (rtspc.regs_writel_of_ne (hne _ (by decide)) v).trans hshadow.usb1

variable (value) in
/-- **Setting a level.**  It changes one bit of one register, whichever way it is done. -/
theorem rtsGpioSet_spec (h : rtsGetPinaddr gpio = some sc) (hshadow : rtspc.Shadowed) :
    ∃ rtspc', rtspc.rtsGpioSet gpio value = some rtspc' ∧ rtspc'.Shadowed ∧
      ∀ r, ∀ i < 32, (rtspc'.regs r).getLsbD i =
        if r = sc.pinaddr + pinregsGpioValue ∧ i = gpio - sc.pinl then decide (value ≠ 0)
        else (rtspc.regs r).getLsbD i := by
  obtain ⟨hmem, hlo, hhi⟩ := rtsGetPinaddr_mem h
  obtain ⟨hadda, husb0, husb1, hbyte, hplain⟩ := shadow_groups sc hmem
  have hbf : gpio - sc.pinl < 32 := by
    have := (pincfgaddr_width sc hmem).1
    omega
  have hbf8 : sc.pinl = 65 ∨ sc.pinl = 78 ∨ sc.pinl = 80 → gpio - sc.pinl < 8 := by
    intro hpinl
    have := hbyte hpinl
    omega
  unfold RtsPinctrl.rtsGpioSet
  rw [h, Option.bind_some]
  dsimp only
  by_cases h65 : sc.pinl = 65
  · rw [if_pos h65, hadda h65]
    refine ⟨_, rfl, ⟨RtsPinctrl.regs_writel_self .., ?_, ?_⟩, fun r i hi => ?_⟩
    · exact (RtsPinctrl.regs_writel_of_ne _ (by decide) _).trans hshadow.usb0
    · exact (RtsPinctrl.regs_writel_of_ne _ (by decide) _).trans hshadow.usb1
    · refine getLsbD_update (fun j _ => ?_) r hi
      rw [getLsbD_shadowSet (hbf8 (.inl h65)), hshadow.adda]
  rw [if_neg h65]
  by_cases h78 : sc.pinl = 78
  · rw [if_pos h78, husb0 h78]
    refine ⟨_, rfl, ⟨?_, RtsPinctrl.regs_writel_self .., ?_⟩, fun r i hi => ?_⟩
    · exact (RtsPinctrl.regs_writel_of_ne _ (by decide) _).trans hshadow.adda
    · exact (RtsPinctrl.regs_writel_of_ne _ (by decide) _).trans hshadow.usb1
    · refine getLsbD_update (fun j _ => ?_) r hi
      rw [getLsbD_shadowSet (hbf8 (.inr (.inl h78))), hshadow.usb0]
  rw [if_neg h78]
  by_cases h80 : sc.pinl = 80
  · rw [if_pos h80, husb1 h80]
    refine ⟨_, rfl, ⟨?_, ?_, RtsPinctrl.regs_writel_self ..⟩, fun r i hi => ?_⟩
    · exact (RtsPinctrl.regs_writel_of_ne _ (by decide) _).trans hshadow.adda
    · exact (RtsPinctrl.regs_writel_of_ne _ (by decide) _).trans hshadow.usb0
    · refine getLsbD_update (fun j _ => ?_) r hi
      rw [getLsbD_shadowSet (hbf8 (.inr (.inr h80))), hshadow.usb1]
  -- The other groups: read, change the bit, write.
  rw [if_neg h80]
  have hreg := hplain h65 h78 h80
  have hread : rtspc.readl (sc.pinaddr + pinregsGpioValue) =
      rtspc.regs (sc.pinaddr + pinregsGpioValue) := if_neg hreg
  by_cases hv : value = 0
  · rw [if_neg (not_not_intro hv)]
    refine ⟨_, if_pos hbf, hshadow.writel hreg _, fun r i hi => ?_⟩
    refine getLsbD_update (fun j hj => ?_) r hi
    rw [hread, getLsbD_clearBit hj]
    simp only [hv, ne_eq, not_true_eq_false, decide_false]
  · rw [if_pos hv]
    refine ⟨_, if_pos hbf, hshadow.writel hreg _, fun r i hi => ?_⟩
    refine getLsbD_update (fun j hj => ?_) r hi
    rw [hread, getLsbD_setBit hj]
    simp only [hv, ne_eq, not_false_eq_true, decide_true]

theorem oe_notMem : ∀ sc ∈ pincfgaddr, sc.pinaddr + pinregsGpioOe ∉ readsZero := by
  decide

/-- Setting a direction changes the output-enable bit of the pin alone. -/
theorem rtsPmxGpioSetDirection_spec (h : rtsGetPinaddr gpio = some sc) (hshadow : rtspc.Shadowed)
    (input : Bool) :
    ∃ rtspc', rtspc.rtsPmxGpioSetDirection gpio input = some (0, rtspc') ∧ rtspc'.Shadowed ∧
      ∀ r, ∀ i < 32, (rtspc'.regs r).getLsbD i =
        if r = sc.pinaddr + pinregsGpioOe ∧ i = gpio - sc.pinl then !input
        else (rtspc.regs r).getLsbD i := by
  obtain ⟨hmem, hlo, hhi⟩ := rtsGetPinaddr_mem h
  have hreg := oe_notMem sc hmem
  have hread : rtspc.readl (sc.pinaddr + pinregsGpioOe) =
      rtspc.regs (sc.pinaddr + pinregsGpioOe) := if_neg hreg
  have hgpio : gpio < rtsMaxNgpio := Nat.lt_of_le_of_lt hhi (pincfgaddr_width sc hmem).2
  have hfield (field : Word) (j : Nat) (hj : j < 32) :
      (setField (rtspc.readl (sc.pinaddr + pinregsGpioOe)) field 1 (gpio - sc.pinl)).getLsbD j =
        if j = gpio - sc.pinl then field.getLsbD 0
        else (rtspc.regs (sc.pinaddr + pinregsGpioOe)).getLsbD j := by
    rw [hread, getLsbD_setField (by decide) hj]
    by_cases heq : j = gpio - sc.pinl
    · rw [if_pos (by omega), if_pos heq, heq, Nat.sub_self]
    · rw [if_neg (by omega), if_neg heq]
  unfold RtsPinctrl.rtsPmxGpioSetDirection RtsPinctrl.rtsGpioConfigSet
  rw [h, Option.map_some, Option.map_some]
  cases input with
  | true =>
    simp only [if_true, if_pos hgpio]
    exact ⟨_, rfl, hshadow.writel hreg _, fun r i hi => getLsbD_update (hfield 0) r hi⟩
  | false =>
    simp only [Bool.false_eq_true, if_false, if_pos hgpio]
    exact ⟨_, rfl, hshadow.writel hreg _, fun r i hi => getLsbD_update (hfield 1) r hi⟩

/-! ## The step -/

theorem pinBit_eq {regs : Regs} (h : rtsGetPinaddr gpio = some sc) (off : Nat) :
    pinBit regs off gpio = (regs (sc.pinaddr + off)).getLsbD (gpio - sc.pinl) := by
  unfold pinBit
  rw [h]

theorem pinBit_update {regs regs' : Regs} {off off' : Nat} {high : Bool}
    (h : rtsGetPinaddr gpio = some sc) (hoff : off < 0x20) (hoff' : off' < 0x20)
    (hbits : ∀ r, ∀ i < 32, (regs' r).getLsbD i =
      if r = sc.pinaddr + off ∧ i = gpio - sc.pinl then high else (regs r).getLsbD i)
    (hgpio : gpio' < rtsMaxNgpio) :
    pinBit regs' off' gpio' =
      if off' = off ∧ gpio' = gpio then high else pinBit regs off' gpio' := by
  obtain ⟨sc', hmem', h'⟩ := pincfgaddr_cover gpio' hgpio
  obtain ⟨hmem, hlo, hhi⟩ := rtsGetPinaddr_mem h
  obtain ⟨-, hlo', hhi'⟩ := rtsGetPinaddr_mem h'
  have hlt : gpio' - sc'.pinl < 32 := by
    have := (pincfgaddr_width sc' hmem').1
    omega
  rw [pinBit_eq h', pinBit_eq h', hbits _ _ hlt]
  by_cases heq : off' = off ∧ gpio' = gpio
  · obtain ⟨rfl, rfl⟩ := heq
    rw [h, Option.some_inj] at h'
    subst h'
    rw [if_pos ⟨rfl, rfl⟩, if_pos ⟨rfl, rfl⟩]
  · rw [if_neg heq, if_neg]
    rintro ⟨hreg, hbit⟩
    obtain ⟨rfl, rfl⟩ := pinaddr_inj hmem' hmem hoff' hoff hreg
    exact heq ⟨rfl, by omega⟩

theorem outputEnabled_eq (hgpio : gpio < rtsMaxNgpio) :
    rtspc.outputEnabled gpio = pinBit rtspc.regs pinregsGpioOe gpio := by
  obtain ⟨sc, hmem, h⟩ := pincfgaddr_cover gpio hgpio
  unfold RtsPinctrl.outputEnabled
  rw [pinBit_eq h, pinBit_eq h, RtsPinctrl.readl, if_neg (oe_notMem sc hmem)]

/-- The registers and the shadow bytes stand for the levels and directions. -/
structure Drives (rtspc : RtsPinctrl) (o : Outputs) : Prop where
  shadowed : rtspc.Shadowed
  level : ∀ gpio < rtsMaxNgpio, rtspc.driven gpio = o.level gpio
  output : ∀ gpio < rtsMaxNgpio, rtspc.outputEnabled gpio = o.output gpio

variable {o : Outputs} {op : GpioOp} {ops : List GpioOp}

theorem Drives.setLevel (hd : Drives rtspc o) (hgpio : gpio < rtsMaxNgpio) (value : Int) :
    ∃ rtspc', rtspc.rtsGpioSet gpio value = some rtspc' ∧
      Drives rtspc' (o.setLevel gpio (value ≠ 0)) := by
  obtain ⟨sc, -, h⟩ := pincfgaddr_cover gpio hgpio
  obtain ⟨rtspc', hrun, hshadow, hbits⟩ := rtsGpioSet_spec value h hd.shadowed
  refine ⟨rtspc', hrun, hshadow, fun gpio' hgpio' => ?_, fun gpio' hgpio' => ?_⟩
  · unfold RtsPinctrl.driven
    rw [pinBit_update h (by decide) (by decide) hbits hgpio']
    show _ = update o.level gpio _ gpio'
    by_cases heq : gpio' = gpio
    · rw [if_pos ⟨rfl, heq⟩, heq, update_self]
    · rw [if_neg fun hand => heq hand.2, update_of_ne heq]
      exact hd.level gpio' hgpio'
  · rw [outputEnabled_eq hgpio', pinBit_update h (by decide) (by decide) hbits hgpio',
      if_neg fun hand => absurd hand.1 (by decide), ← outputEnabled_eq hgpio']
    exact hd.output gpio' hgpio'

theorem Drives.setOutput (hd : Drives rtspc o) (hgpio : gpio < rtsMaxNgpio) (input : Bool) :
    ∃ rtspc', rtspc.rtsPmxGpioSetDirection gpio input = some (0, rtspc') ∧
      Drives rtspc' (o.setOutput gpio !input) := by
  obtain ⟨sc, -, h⟩ := pincfgaddr_cover gpio hgpio
  obtain ⟨rtspc', hrun, hshadow, hbits⟩ := rtsPmxGpioSetDirection_spec h hd.shadowed input
  refine ⟨rtspc', hrun, hshadow, fun gpio' hgpio' => ?_, fun gpio' hgpio' => ?_⟩
  · unfold RtsPinctrl.driven
    rw [pinBit_update h (by decide) (by decide) hbits hgpio',
      if_neg fun hand => absurd hand.1 (by decide)]
    exact hd.level gpio' hgpio'
  · rw [outputEnabled_eq hgpio', pinBit_update h (by decide) (by decide) hbits hgpio']
    show _ = update o.output gpio _ gpio'
    by_cases heq : gpio' = gpio
    · rw [if_pos ⟨rfl, heq⟩, heq, update_self]
    · rw [if_neg fun hand => heq hand.2, update_of_ne heq, ← outputEnabled_eq hgpio']
      exact hd.output gpio' hgpio'

/-- **The step.**  Every operation of the driver is the abstract operation. -/
theorem Drives.step (hd : Drives rtspc o) (hpin : op.gpio < rtsMaxNgpio) :
    ∃ rtspc', gpioStep rtspc op = some rtspc' ∧ Drives rtspc' (o.step op) := by
  have hdir (rtspc : RtsPinctrl) (gpio : Nat) (hgpio : gpio < rtsMaxNgpio) (input : Bool) :
      rtspc.pinctrlGpioDirection gpio input = rtspc.rtsPmxGpioSetDirection gpio input :=
    if_pos hgpio
  cases op with
  | set gpio value => exact hd.setLevel hpin value
  | directionInput gpio =>
    have hgpio : gpio < rtsMaxNgpio := hpin
    obtain ⟨rtspc', hrun, hend⟩ := hd.setOutput hgpio true
    refine ⟨rtspc', ?_, hend⟩
    show (rtspc.pinctrlGpioDirection gpio true).map _ = _
    rw [hdir rtspc gpio hgpio, hrun]
    rfl
  | directionOutput gpio value =>
    have hgpio : gpio < rtsMaxNgpio := hpin
    obtain ⟨u, hu, hmid⟩ := hd.setLevel hgpio value
    obtain ⟨rtspc', hrun, hend⟩ := hmid.setOutput hgpio false
    refine ⟨rtspc', ?_, hend⟩
    show ((rtspc.rtsGpioSet gpio value).bind _).map _ = _
    rw [hu, Option.bind_some, hdir u gpio hgpio, hrun]
    rfl
  | setDirection gpio input =>
    have hgpio : gpio < rtsMaxNgpio := hpin
    obtain ⟨rtspc', hrun, hend⟩ := hd.setOutput hgpio input
    refine ⟨rtspc', ?_, hend⟩
    show (rtspc.rtsPmxGpioSetDirection gpio input).map _ = _
    rw [hrun]
    rfl

theorem Drives.run (hd : Drives rtspc o) (hpins : ∀ op ∈ ops, op.gpio < rtsMaxNgpio) :
    ∃ rtspc', Runs.exec gpioStep rtspc ops = some rtspc' ∧
      Drives rtspc' (ops.foldl Outputs.step o) := by
  induction ops generalizing rtspc o with
  | nil => exact ⟨rtspc, rfl, hd⟩
  | cons op ops ih =>
    obtain ⟨u, hu, hmid⟩ := hd.step (hpins op List.mem_cons_self)
    obtain ⟨rtspc', hrun, hend⟩ := ih hmid fun op' hmem => hpins op' (List.mem_cons_of_mem op hmem)
    exact ⟨rtspc', Runs.exec_cons.mpr ⟨u, hu, hrun⟩, hend⟩

/-! ## Reading a level -/

theorem setWidth_lowBit (shadow : BitVec 8) (bf : Nat) :
    (shadow >>> bf &&& 1).setWidth 32 = if shadow.getLsbD bf then (1 : Word) else 0 := by
  apply BitVec.eq_of_getLsbD_eq
  intro i hi
  rw [BitVec.getLsbD_setWidth, BitVec.getLsbD_and, BitVec.getLsbD_ushiftRight,
    show (1 : BitVec 8) = 1#8 from rfl, BitVec.getLsbD_one]
  by_cases h0 : i = 0
  · subst h0
    cases shadow.getLsbD bf <;> simp
  · cases shadow.getLsbD bf <;> simp [h0]

theorem rtsGpioGet_of_output (hd : Drives rtspc o) (hgpio : gpio < rtsMaxNgpio)
    (hout : rtspc.outputEnabled gpio = true) :
    rtspc.rtsGpioGet gpio = some (if rtspc.driven gpio then 1 else 0) := by
  obtain ⟨sc, hmem, h⟩ := pincfgaddr_cover gpio hgpio
  obtain ⟨-, hlo, hhi⟩ := rtsGetPinaddr_mem h
  obtain ⟨hadda, husb0, husb1, hbyte, hplain⟩ := shadow_groups sc hmem
  have hoe : rtspc.rtsGpioGetField (sc.pinaddr + pinregsGpioOe) 1 (gpio - sc.pinl) ≠ 0 := by
    unfold RtsPinctrl.outputEnabled at hout
    rw [pinBit_eq h] at hout
    unfold RtsPinctrl.rtsGpioGetField
    rw [getField_one, hout, if_pos rfl]
    decide
  -- The shadow byte and the register it is written to give the same bit.
  have hshadow (shadow : BitVec 8) (hlt : gpio - sc.pinl < 8)
      (hreg : rtspc.regs (sc.pinaddr + pinregsGpioValue) = shadow.setWidth 32) :
      (shadow >>> (gpio - sc.pinl) &&& 1).setWidth 32 =
        if rtspc.driven gpio then (1 : Word) else 0 := by
    unfold RtsPinctrl.driven
    rw [pinBit_eq h, hreg, BitVec.getLsbD_setWidth, decide_eq_true (by omega), Bool.true_and]
    exact setWidth_lowBit shadow _
  unfold RtsPinctrl.rtsGpioGet
  rw [h, Option.map_some, Option.some_inj]
  dsimp only
  by_cases h65 : sc.pinl = 65
  · have hlt : gpio - sc.pinl < 8 := by
      have := hbyte (.inl h65)
      omega
    rw [if_pos ⟨h65, hoe⟩]
    exact hshadow _ hlt (hadda h65 ▸ hd.shadowed.adda)
  rw [if_neg fun hand => h65 hand.1]
  by_cases h78 : sc.pinl = 78
  · have hlt : gpio - sc.pinl < 8 := by
      have := hbyte (.inr (.inl h78))
      omega
    rw [if_pos ⟨h78, hoe⟩]
    exact hshadow _ hlt (husb0 h78 ▸ hd.shadowed.usb0)
  rw [if_neg fun hand => h78 hand.1]
  by_cases h80 : sc.pinl = 80
  · have hlt : gpio - sc.pinl < 8 := by
      have := hbyte (.inr (.inr h80))
      omega
    rw [if_pos ⟨h80, hoe⟩]
    exact hshadow _ hlt (husb1 h80 ▸ hd.shadowed.usb1)
  rw [if_neg fun hand => h80 hand.1]
  unfold RtsPinctrl.rtsGpioGetField RtsPinctrl.readl RtsPinctrl.driven
  rw [if_neg (hplain h65 h78 h80), getField_one, pinBit_eq h]

/-- **Outputs.**  From cleared registers and shadow bytes, every run of the operations is defined.
Afterwards every pin drives the level last set on it and has the direction last set, a pin whose
output-enable bit is set reads as that level, and setting a pin once more leaves what the others
drive as it is. -/
theorem gpioGet_eq_lastSet (hregs : rtspc.regs = fun _ => 0) (hadda : rtspc.audioAddaGpioValue = 0)
    (husb0 : rtspc.usb0GpioValue = 0) (husb1 : rtspc.usb1GpioValue = 0)
    (hpins : ∀ op ∈ ops, op.gpio < rtsMaxNgpio) :
    ∃ rtspc', Runs.exec gpioStep rtspc ops = some rtspc' ∧
      (∀ gpio < rtsMaxNgpio, rtspc'.driven gpio = (Outputs.run ops).level gpio ∧
        rtspc'.outputEnabled gpio = (Outputs.run ops).output gpio ∧
        (rtspc'.outputEnabled gpio = true →
          rtspc'.rtsGpioGet gpio = some (if (Outputs.run ops).level gpio then 1 else 0))) ∧
      ∀ gpio < rtsMaxNgpio, ∀ value, ∃ rtspc'', rtspc'.rtsGpioSet gpio value = some rtspc'' ∧
        ∀ gpio' < rtsMaxNgpio, gpio' ≠ gpio → rtspc''.driven gpio' = rtspc'.driven gpio' := by
  have hstart : Drives rtspc ⟨fun _ => false, fun _ => false⟩ := by
    refine ⟨⟨?_, ?_, ?_⟩, fun gpio hgpio => ?_, fun gpio hgpio => ?_⟩
    · rw [hregs, hadda]
      rfl
    · rw [hregs, husb0]
      rfl
    · rw [hregs, husb1]
      rfl
    · obtain ⟨sc, -, h⟩ := pincfgaddr_cover gpio hgpio
      unfold RtsPinctrl.driven
      rw [pinBit_eq h, hregs]
      exact BitVec.getLsbD_zero
    · obtain ⟨sc, -, h⟩ := pincfgaddr_cover gpio hgpio
      rw [outputEnabled_eq hgpio, pinBit_eq h, hregs]
      exact BitVec.getLsbD_zero
  obtain ⟨rtspc', hrun, hd⟩ := hstart.run hpins
  refine ⟨rtspc', hrun, fun gpio hgpio => ⟨hd.level gpio hgpio, hd.output gpio hgpio,
    fun hout => ?_⟩, fun gpio hgpio value => ?_⟩
  · rw [rtsGpioGet_of_output hd hgpio hout, hd.level gpio hgpio]
    rfl
  · obtain ⟨rtspc'', hset, hd'⟩ := hd.setLevel hgpio value
    refine ⟨rtspc'', hset, fun gpio' hgpio' hne => ?_⟩
    rw [hd'.level gpio' hgpio', hd.level gpio' hgpio']
    exact update_of_ne hne _ _

/-- A pin with a shadow byte, a pin without, and a change of direction. -/
def toggleOutputs : List GpioOp :=
  [.directionOutput 65 1, .directionOutput 16 1, .set 66 1, .set 65 0, .directionInput 16,
    .setDirection 66 false]

/-- Pin 66 ends as a high output. -/
theorem gpioGet_toggleOutputs :
    ∃ rtspc', Runs.exec gpioStep cleared toggleOutputs = some rtspc' ∧
      rtspc'.outputEnabled 66 = true ∧ rtspc'.rtsGpioGet 66 = some 1 ∧
      rtspc'.outputEnabled 16 = false ∧ rtspc'.driven 16 = true := by
  obtain ⟨rtspc', hrun, hall, -⟩ :=
    gpioGet_eq_lastSet (show cleared.regs = _ from rfl) rfl rfl rfl
      (show ∀ op ∈ toggleOutputs, op.gpio < rtsMaxNgpio by decide)
  obtain ⟨-, hout, hget⟩ := hall 66 (by decide)
  obtain ⟨hdriven, hin, -⟩ := hall 16 (by decide)
  exact ⟨rtspc', hrun, hout, hget hout, hin, hdriven⟩

end RealtekIpcam.Pinctrl
