import RealtekIpcam.Lib.Runs
import RealtekIpcam.Pinctrl.Driver

/-!
# The last writer of a pad field

Every pin has a field in a `PAD_CFG` register that says what the pad is used for; neighbours may
share one.  Where the fields are is known to the boot loader, whose `rts_gpio_get_function` decodes
them, and to the kernel driver, which writes them in `rts_gpio_enable` and `rts_pmx_enable`.
`LastWriterWins` is the purpose of the writes: after any row of operations a field holds what the
last of them that covers a pin of the field selects, and a field that none covers is unchanged.

Two things go wrong.  Some writes are misplaced: `gpio_enable` of four pins and one group
write no field of their own, or a neighbour's bits.  Others are narrower than the field they
are for, or reach the field of a pin they do not cover.  `MuxOk` is the condition that an
operation is not misplaced and finds the bits it leaves over clear, and `lastWriterWins_iff`
says that it is exact.
-/

namespace RealtekIpcam.Pinctrl

open BitField Runs

/-! ## The boot loader's decoder -/

/-- The field of a `PAD_CFG` register that belongs to a pin. -/
structure PadField where
  reg : Nat
  width : Nat
  offset : Nat
  deriving DecidableEq

/-- What `rts_gpio_get_function` takes for `bf` in the end. -/
def decodedBit (sc : SharepinCfgAddr) (offset : Nat) : Nat :=
  let bf := offset - sc.pinl
  match sc.pint with
  | .uart0 | .uart1 | .uart2 => 3 - bf
  | .ssor =>
    let bf := (if bf ≥ 11 then 11 else bf) / 2
    if bf ≥ 3 then bf + 1 else bf
  | .dmic | .adda => bf / 2
  | _ => bf

/-- The field that `rts_gpio_get_function` reads for a pin, if it reads one. -/
def padField (sc : SharepinCfgAddr) (offset : Nat) : Option PadField :=
  let bf := decodedBit sc offset
  let padCfg := sc.pinaddr + pinregsPadCfg
  match sc.pint with
  | .generic =>
    if offset = 0 then some ⟨padCfg, 4, 0⟩
    else if offset = 1 then some ⟨padCfg, 4, 4⟩
    else if offset = 8 then some ⟨padCfg, 4, 8⟩
    else if offset = 12 then some ⟨padCfg, 4, 12⟩
    else if offset = 13 then some ⟨padCfg, 4, 16⟩
    else none
  | .sdio0 =>
    if offset = 38 then some ⟨padCfg, 2, 4⟩
    else if offset = 39 then some ⟨padCfg, 2, 2⟩
    else some ⟨padCfg, 2, 0⟩
  | .sdio1 =>
    if offset = 46 then some ⟨padCfg, 4, 8⟩
    else if offset = 47 then some ⟨padCfg, 4, 4⟩
    else some ⟨padCfg, 4, 0⟩
  | .ssori2c | .spi => some ⟨padCfg, 2, 0⟩
  | _ => some ⟨padCfg, 4, bf * 4⟩

namespace RtsPinctrl

variable (rtspc : RtsPinctrl)

def padValue (f : PadField) : Word := rtspc.rtsGpioGetField f.reg f.width f.offset

end RtsPinctrl

/-- The pad fields of all pins. -/
def padFields : List PadField :=
  (List.range rtsMaxNgpio).filterMap fun pin => (rtsGetPinaddr pin).bind (padField · pin)

/-! ## The operations -/

/-- The operations that select what pads are used for. -/
inductive PadOp where
  | gpioEnable (gpio : Nat)
  | pmxEnable (func group : Nat)
  deriving DecidableEq

namespace PadOp

/-- The pin is one of the chip's, or the group belongs to the function. -/
def Valid : PadOp → Prop
  | .gpioEnable gpio => gpio < rtsMaxNgpio
  | .pmxEnable func group => group ∈ rtsFunctions.getD func []

instance : DecidablePred Valid
  | .gpioEnable _ => inferInstanceAs (Decidable (_ < _))
  | .pmxEnable _ _ => inferInstanceAs (Decidable (_ ∈ _))

def pins : PadOp → List Nat
  | .gpioEnable gpio => [gpio]
  | .pmxEnable _ group => rtsPinGroups.getD group []

/-- One of the pins has this field. -/
def Covers (op : PadOp) (f : PadField) : Prop :=
  ∃ pin ∈ op.pins, (rtsGetPinaddr pin).bind (padField · pin) = some f
  deriving Decidable

/-- The calls of `rts_gpio_set_field` that the operation makes. -/
def writes : PadOp → List FieldWrite
  | .gpioEnable gpio => ((rtsGetPinaddr gpio).map (gpioEnableWrite · gpio)).getD []
  | .pmxEnable func group => pmxEnableWrites func group

/-- The call that is for this field: the one that writes at its place. -/
def writeFor (op : PadOp) (f : PadField) : Option FieldWrite :=
  op.writes.find? fun w => decide (w.reg = f.reg ∧ w.offset = f.offset)

/-- The value that the operation selects for a field. -/
def selects (op : PadOp) (f : PadField) : Option Word := (op.writeFor f).map FieldWrite.field

/-- The operations with a write in the wrong place, or with none: pins 12 and 13 have a field that
`rts_gpio_enable` does not write, pins 46 and 47 have their fields elsewhere, and so do the pins of
`amicgrp`; the function `gpiofunc` writes nothing for any pin. -/
def Misplaced : PadOp → Prop
  | .gpioEnable gpio => gpio = 12 ∨ gpio = 13 ∨ gpio = 46 ∨ gpio = 47
  | .pmxEnable func group =>
    func = gpioFuncSelect ∨ (func = audioFuncSelect ∧ group = amicGroupSelect)

instance : DecidablePred Misplaced
  | .gpioEnable _ => inferInstanceAs (Decidable (_ ∨ _))
  | .pmxEnable _ _ => inferInstanceAs (Decidable (_ ∨ _))

end PadOp

/-- One operation of the driver. -/
def padStep (rtspc : RtsPinctrl) : PadOp → Option RtsPinctrl
  | .gpioEnable gpio => rtspc.rtsGpioEnable gpio
  | .pmxEnable func group => some (rtspc.rtsPmxEnable func group).2

/-- The last operation of a row that covers a field. -/
def lastWriter (ops : List PadOp) (f : PadField) : Option PadOp :=
  (ops.filter (decide <| ·.Covers f)).getLast?

/-- **Last writer wins.**  Every field holds what the last operation that covers it selects, and is
as before if there is none. -/
def LastWriterWins (before after : RtsPinctrl) (ops : List PadOp) : Prop :=
  ∀ f ∈ padFields, (lastWriter ops f).elim (some (before.padValue f)) (·.selects f) =
    some (after.padValue f)
  deriving Decidable

/-- The operation is not misplaced, and finds the registers as its writes need them.

* Where a write is narrower than the field of a pin that the operation covers, the bits above it are
  clear.
* Where a write is to the field of a pin that the operation does not cover, its value is there. -/
def MuxOk (rtspc : RtsPinctrl) (op : PadOp) : Prop :=
  ¬ op.Misplaced ∧ ∀ f ∈ padFields, ∀ w ∈ op.writeFor f,
    if op.Covers f then
      rtspc.rtsGpioGetField w.reg (f.width - w.width) (w.offset + w.width) = 0
    else rtspc.rtsGpioGetField w.reg w.width w.offset = w.field
  deriving Decidable

/-! ## The tables -/

/-- All operations. -/
def padOps : List PadOp :=
  (List.range rtsMaxNgpio).map .gpioEnable ++
    (List.range rtsFunctions.length).flatMap fun func =>
      (rtsFunctions.getD func []).map (.pmxEnable func)

variable {op : PadOp} {f : PadField} {w : FieldWrite}

theorem PadOp.Valid.mem (h : op.Valid) : op ∈ padOps := by
  unfold padOps
  rw [List.mem_append]
  cases op with
  | gpioEnable gpio => exact .inl (List.mem_map.mpr ⟨gpio, List.mem_range.mpr h, rfl⟩)
  | pmxEnable func group =>
    have hgroup : group ∈ rtsFunctions.getD func [] := h
    have hfunc : func < rtsFunctions.length := by
      by_contra hlen
      rw [List.getD_eq_getElem?_getD, List.getElem?_eq_none (Nat.le_of_not_lt hlen)] at hgroup
      exact List.not_mem_nil hgroup
    exact .inr (List.mem_flatMap.mpr
      ⟨func, List.mem_range.mpr hfunc, List.mem_map.mpr ⟨group, hgroup, rfl⟩⟩)

theorem writeFor_spec (h : op.writeFor f = some w) :
    w ∈ op.writes ∧ w.reg = f.reg ∧ w.offset = f.offset := by
  unfold PadOp.writeFor at h
  have hat := List.find?_some h
  exact ⟨List.mem_of_find?_eq_some h, of_decide_eq_true hat⟩

theorem writes_narrow : ∀ op ∈ padOps, ∀ w ∈ op.writes, w.width < 32 ∧ w.reg ∉ readsZero := by
  decide +kernel

theorem padFields_narrow : ∀ f ∈ padFields,
    f.width < 32 ∧ f.offset + f.width ≤ 32 ∧ f.reg ∉ readsZero := by
  decide +kernel

/-- An operation that is not misplaced writes at the place of a field, what fits into it, or apart
from it; it writes once at a place, and for every field that it covers. -/
theorem writes_placed : ∀ op ∈ padOps, ¬ op.Misplaced →
    (∀ w ∈ op.writes, ∀ f ∈ padFields, w.reg = f.reg →
      (w.offset = f.offset ∧ w.field &&& fieldMask w.width = w.field ∧
        w.field &&& fieldMask f.width = w.field ∧ (w.width ≤ f.width ∨ op.Covers f)) ∨
      (w.offset ≠ f.offset ∧
        (w.offset + w.width ≤ f.offset ∨ f.offset + f.width ≤ w.offset))) ∧
    (∀ v ∈ op.writes, ∀ w ∈ op.writes, v.reg = w.reg ∧ v.offset = w.offset → v = w) ∧
    ∀ pin ∈ op.pins, ∀ f ∈ (rtsGetPinaddr pin).bind (padField · pin), (op.writeFor f).isSome := by
  decide +kernel

/-- An operation that is not misplaced changes a pad field in one place only, by the write that is
for it. -/
theorem lastBit_writes (hop : op ∈ padOps) (hplace : ¬ op.Misplaced) (hf : f ∈ padFields) {i : Nat}
    (hi : i < f.width) : lastBit op.writes f.reg (f.offset + i) =
      (op.writeFor f).bind fun w => if i < w.width then some (w.field.getLsbD i) else none :=
  lastBit_of_apart hi
    (fun w hw hreg => ((writes_placed op hop hplace).1 w hw f hf hreg).imp And.left And.right)
    fun v hv w hw hvf hwf => (writes_placed op hop hplace).2.1 v hv w hw
      ⟨hvf.1.trans hwf.1.symm, hvf.2.trans hwf.2.symm⟩

theorem writeFor_isSome (hop : op ∈ padOps) (hplace : ¬ op.Misplaced) (hcov : op.Covers f) :
    ∃ w, op.writeFor f = some w := by
  obtain ⟨pin, hpin, hf⟩ := hcov
  exact Option.isSome_iff_exists.mp ((writes_placed op hop hplace).2.2 pin hpin f hf)

theorem writeFor_eq_none : ∀ op ∈ padOps, op.Misplaced → ∃ f ∈ padFields, op.Covers f ∧
    op.writeFor f = none := by
  decide +kernel

example : (padOps.filter (decide <| PadOp.Misplaced ·)).length = 6 := by
  decide +kernel

theorem write_fits (hop : op ∈ padOps) (hplace : ¬ op.Misplaced) (hw : w ∈ op.writes)
    (hf : f ∈ padFields) (hat : w.reg = f.reg ∧ w.offset = f.offset) :
    w.field &&& fieldMask w.width = w.field ∧ w.field &&& fieldMask f.width = w.field ∧
      (¬ op.Covers f → w.width ≤ f.width) := by
  obtain ⟨-, hfits, hfits', hcov⟩ | ⟨hne, -⟩ := (writes_placed op hop hplace).1 w hw f hf hat.1
  · exact ⟨hfits, hfits', hcov.resolve_right⟩
  · exact absurd hat.2 hne

/-! ## One operation -/

variable {rtspc rtspc' : RtsPinctrl} {ops : List PadOp}

theorem setFields_regs {ws : List FieldWrite} (hws : ∀ w ∈ ws, w.reg ∉ readsZero) :
    (rtspc.setFields ws).regs = BitField.writes rtspc.regs ws := by
  induction ws generalizing rtspc with
  | nil => rfl
  | cons w ws ih =>
    have hread : rtspc.readl w.reg = rtspc.regs w.reg := if_neg (hws w List.mem_cons_self)
    show ((rtspc.rtsGpioSetField w.reg w.field w.width w.offset).setFields ws).regs = _
    rw [ih fun x hx => hws x (List.mem_cons_of_mem w hx)]
    unfold RtsPinctrl.rtsGpioSetField RtsPinctrl.writel
    rw [hread]
    rfl

variable (rtspc) in
theorem padStep_eq (hvalid : op.Valid) :
    ∃ rtspc', padStep rtspc op = some rtspc' ∧
      rtspc'.regs = BitField.writes rtspc.regs op.writes := by
  have hread : ∀ w ∈ op.writes, w.reg ∉ readsZero :=
    fun w hw => (writes_narrow op hvalid.mem w hw).2
  cases op with
  | gpioEnable gpio =>
    obtain ⟨sc, -, hsc⟩ := pincfgaddr_cover gpio hvalid
    have hwrites : PadOp.writes (.gpioEnable gpio) = gpioEnableWrite sc gpio := by
      show ((rtsGetPinaddr gpio).map (gpioEnableWrite · gpio)).getD [] = _
      rw [hsc]
      rfl
    rw [hwrites] at hread ⊢
    refine ⟨rtspc.setFields (gpioEnableWrite sc gpio), ?_, setFields_regs hread⟩
    show (rtsGetPinaddr gpio).map _ = _
    rw [hsc]
    rfl
  | pmxEnable func group => exact ⟨_, rfl, setFields_regs hread⟩

theorem padValue_eq (hf : f ∈ padFields) :
    rtspc.padValue f = getField (rtspc.regs f.reg) f.width f.offset := by
  unfold RtsPinctrl.padValue RtsPinctrl.rtsGpioGetField RtsPinctrl.readl
  rw [if_neg (padFields_narrow f hf).2.2]

theorem getLsbD_padField (hop : op ∈ padOps) (hplace : ¬ op.Misplaced) (hf : f ∈ padFields)
    (hregs : rtspc'.regs = BitField.writes rtspc.regs op.writes) {i : Nat} (hi : i < f.width) :
    (rtspc'.regs f.reg).getLsbD (f.offset + i) =
      match op.writeFor f with
      | some w => if i < w.width then w.field.getLsbD i
        else (rtspc.regs f.reg).getLsbD (f.offset + i)
      | none => (rtspc.regs f.reg).getLsbD (f.offset + i) := by
  have hlt : f.offset + i < 32 := by
    have := (padFields_narrow f hf).2.1
    omega
  rw [hregs, getLsbD_writes (fun w hw => (writes_narrow op hop w hw).1) hlt,
    lastBit_writes hop hplace hf hi]
  cases op.writeFor f with
  | none => rfl
  | some w =>
    rw [Option.bind_some]
    by_cases hin : i < w.width
    · simp only [hin, if_true, Option.getD_some]
    · simp only [hin, if_false, Option.getD_none]

theorem lastWriter_singleton :
    lastWriter [op] f = if op.Covers f then some op else none := by
  unfold lastWriter
  by_cases hcov : op.Covers f
  · simp only [List.filter_cons, hcov, decide_true, if_true, List.filter_nil,
      List.getLast?_singleton]
  · simp only [List.filter_cons, hcov, decide_false, Bool.false_eq_true, if_false, List.filter_nil,
      List.getLast?_nil]

theorem lastWriterWins_singleton : LastWriterWins rtspc rtspc' [op] ↔ ∀ f ∈ padFields,
    if op.Covers f then op.selects f = some (rtspc'.padValue f)
    else rtspc'.padValue f = rtspc.padValue f := by
  unfold LastWriterWins
  refine forall₂_congr fun f _ => ?_
  rw [lastWriter_singleton]
  by_cases hcov : op.Covers f
  · rw [if_pos hcov, if_pos hcov]
    rfl
  · rw [if_neg hcov, if_neg hcov, Option.elim_none, Option.some_inj, eq_comm]

/-- A covered field holds what the operation selects exactly if the bits above the write are
clear. -/
theorem padValue_eq_field (hop : op ∈ padOps) (hplace : ¬ op.Misplaced) (hf : f ∈ padFields)
    (hregs : rtspc'.regs = BitField.writes rtspc.regs op.writes) (hw : op.writeFor f = some w) :
    rtspc'.padValue f = w.field ↔
      rtspc.rtsGpioGetField w.reg (f.width - w.width) (w.offset + w.width) = 0 := by
  obtain ⟨hwidth, -, hread⟩ := padFields_narrow f hf
  obtain ⟨hmem, hreg, hoff⟩ := writeFor_spec hw
  obtain ⟨hfit, hfit', -⟩ :=
    write_fits hop hplace hmem hf ⟨hreg, hoff⟩
  have hhigh : ∀ i, w.width ≤ i → i < f.width → w.field.getLsbD i = false := by
    intro i hlo hi
    have hww := (writes_narrow op hop w hmem).1
    rw [← hfit, BitVec.getLsbD_and, getLsbD_fieldMask hww, decide_eq_false (by omega),
      Bool.and_false]
  rw [padValue_eq hf, getField_eq_iff hwidth hfit']
  unfold RtsPinctrl.rtsGpioGetField RtsPinctrl.readl
  rw [hreg, if_neg hread, hoff, getField_eq_iff (by omega) (by simp)]
  constructor
  · intro h i hi
    have hbit := h (w.width + i) (by omega)
    rw [getLsbD_padField hop hplace hf hregs (by omega), hw, hhigh _ (by omega) (by omega)] at hbit
    simp only [Nat.not_lt.mpr (Nat.le_add_right w.width i), if_false] at hbit
    rw [Nat.add_assoc, hbit]
    exact BitVec.getLsbD_zero.symm
  · intro h i hi
    rw [getLsbD_padField hop hplace hf hregs hi, hw]
    by_cases hin : i < w.width
    · simp only [hin, if_true]
    · simp only [hin, if_false]
      have hbit := (h (i - w.width) (by omega)).trans BitVec.getLsbD_zero
      rw [show f.offset + w.width + (i - w.width) = f.offset + i by omega] at hbit
      rw [hbit, hhigh i (by omega) hi]

theorem padValue_eq_padValue (hop : op ∈ padOps) (hplace : ¬ op.Misplaced) (hf : f ∈ padFields)
    (hregs : rtspc'.regs = BitField.writes rtspc.regs op.writes) (hw : op.writeFor f = some w)
    (hcov : ¬ op.Covers f) : rtspc'.padValue f = rtspc.padValue f ↔
      rtspc.rtsGpioGetField w.reg w.width w.offset = w.field := by
  obtain ⟨hwidth, -, hread⟩ := padFields_narrow f hf
  obtain ⟨hmem, hreg, hoff⟩ := writeFor_spec hw
  obtain ⟨hfit, -, hle⟩ :=
    write_fits hop hplace hmem hf ⟨hreg, hoff⟩
  have hlt := hle hcov
  rw [padValue_eq hf, padValue_eq hf, getField_eq_getField hwidth]
  unfold RtsPinctrl.rtsGpioGetField RtsPinctrl.readl
  rw [hreg, if_neg hread, hoff, getField_eq_iff (by omega) hfit]
  constructor
  · intro h i hi
    have hbit := h i (by omega)
    rw [getLsbD_padField hop hplace hf hregs (by omega), hw] at hbit
    simp only [hi, if_true] at hbit
    exact hbit.symm
  · intro h i hi
    rw [getLsbD_padField hop hplace hf hregs hi, hw]
    by_cases hin : i < w.width
    · simp only [hin, if_true]
      exact (h i hin).symm
    · simp only [hin, if_false]

/-- **The condition is exact.**  It is what one operation needs to be the last writer of its fields
and to leave the others alone. -/
theorem lastWriterWins_step (hop : op ∈ padOps)
    (hregs : rtspc'.regs = BitField.writes rtspc.regs op.writes) :
    LastWriterWins rtspc rtspc' [op] ↔ MuxOk rtspc op := by
  rw [lastWriterWins_singleton]
  by_cases hplace : op.Misplaced
  · refine iff_of_false (fun h => ?_) fun hok => hok.1 hplace
    obtain ⟨f, hf, hcov, hnone⟩ := writeFor_eq_none op hop hplace
    have hsel := h f hf
    rw [if_pos hcov, PadOp.selects, hnone] at hsel
    cases hsel
  · unfold MuxOk
    rw [and_iff_right hplace]
    refine forall₂_congr fun f hf => ?_
    cases hw : op.writeFor f with
    | none =>
      have hcov : ¬ op.Covers f := fun hcov => by
        obtain ⟨w, hw'⟩ := writeFor_isSome hop hplace hcov
        rw [hw] at hw'
        cases hw'
      rw [if_neg hcov]
      refine iff_of_true ?_ nofun
      rw [padValue_eq hf, padValue_eq hf, getField_eq_getField (padFields_narrow f hf).1]
      intro i hi
      rw [getLsbD_padField hop hplace hf hregs hi, hw]
    | some w =>
      simp only [Option.mem_some_iff, forall_eq']
      by_cases hcov : op.Covers f
      · rw [if_pos hcov, if_pos hcov, PadOp.selects, hw, Option.map_some, Option.some_inj,
          ← padValue_eq_field hop hplace hf hregs hw, eq_comm]
      · rw [if_neg hcov, if_neg hcov, padValue_eq_padValue hop hplace hf hregs hw hcov]

/-! ## Runs -/

theorem lastWriter_cons : lastWriter (op :: ops) f =
    (lastWriter ops f).or (if op.Covers f then some op else none) := by
  unfold lastWriter
  by_cases hcov : op.Covers f
  · rw [List.filter_cons_of_pos (by simpa using hcov), List.getLast?_cons, if_pos hcov]
    cases (ops.filter (decide <| ·.Covers f)).getLast? <;> rfl
  · rw [List.filter_cons_of_neg (by simpa using hcov), if_neg hcov, Option.or_none]

theorem lastWriterWins_cons {u : RtsPinctrl} (hstep : LastWriterWins rtspc u [op]) :
    LastWriterWins rtspc rtspc' (op :: ops) ↔ LastWriterWins u rtspc' ops := by
  unfold LastWriterWins
  refine forall₂_congr fun f hf => ?_
  have hfirst := hstep f hf
  rw [lastWriter_singleton] at hfirst
  rw [lastWriter_cons]
  cases lastWriter ops f with
  | some last => rfl
  | none =>
    show (if op.Covers f then some op else none).elim _ _ = _ ↔ _
    rw [hfirst]
    rfl

/-- **Last writer wins.**  From any contents of the registers, every state that a row of operations
passes through has the value selected by the last writer in every pad field, if and only if every
operation is well placed and finds the bits that its writes leave over, or write beyond its own
fields, as it needs them. -/
theorem lastWriterWins_iff (hvalid : ∀ op ∈ ops, op.Valid) :
    (∀ pre, pre <+: ops → ∃ rtspc', exec padStep rtspc pre = some rtspc' ∧
        LastWriterWins rtspc rtspc' pre) ↔
      Along padStep MuxOk rtspc ops := by
  induction ops generalizing rtspc with
  | nil =>
    refine iff_of_true (fun pre hpre => ?_) trivial
    rw [List.prefix_nil.mp hpre]
    exact ⟨rtspc, rfl, fun f hf => rfl⟩
  | cons op ops ih =>
    obtain ⟨u, hu, hregs⟩ := padStep_eq rtspc (hvalid op List.mem_cons_self)
    have hok := lastWriterWins_step (hvalid op List.mem_cons_self).mem hregs
    have htail := @ih u fun op' hop' => hvalid op' (List.mem_cons_of_mem op hop')
    have hexec (pre : List PadOp) :
        exec padStep rtspc (op :: pre) = exec padStep u pre := by
      show (padStep rtspc op).bind _ = _
      rw [hu]
      rfl
    constructor
    · intro h
      obtain ⟨v, hv, hone⟩ := h [op] (by simp)
      rw [hexec, exec_nil, Option.some_inj] at hv
      subst hv
      refine ⟨hok.mp hone, fun t ht => ?_⟩
      rw [hu, Option.some_inj] at ht
      subst ht
      refine htail.mp fun pre hpre => ?_
      obtain ⟨rtspc', hrun, hwins⟩ := h (op :: pre) (List.cons_prefix_cons.mpr ⟨rfl, hpre⟩)
      exact ⟨rtspc', hexec pre ▸ hrun, (lastWriterWins_cons hone).mp hwins⟩
    · rintro ⟨hfirst, hrest⟩ pre hpre
      have hone := hok.mpr hfirst
      rcases pre with _ | ⟨op', pre⟩
      · exact ⟨rtspc, rfl, fun f hf => rfl⟩
      · obtain ⟨rfl, hpre'⟩ := List.cons_prefix_cons.mp hpre
        obtain ⟨rtspc', hrun, hwins⟩ := htail.mpr (hrest u hu) pre hpre'
        exact ⟨rtspc', (hexec pre).trans hrun, (lastWriterWins_cons hone).mpr hwins⟩

/-- Three users of pin 16 in turn, and two of the SD card's. -/
def remuxUart : List PadOp :=
  [.pmxEnable uartFuncSelect uart0GroupSelect, .pmxEnable sdio0FuncSelect sdio0GroupSelect,
    .gpioEnable 16, .pmxEnable sdio0FuncSelect sdio0cdGroupSelect,
    .pmxEnable audioFuncSelect i2sxb2GroupSelect]

theorem lastWriterWins_remuxUart : ∃ rtspc', exec padStep cleared remuxUart = some rtspc' ∧
    LastWriterWins cleared rtspc' remuxUart :=
  (lastWriterWins_iff (by decide)).mpr (by decide +kernel) remuxUart (List.prefix_refl remuxUart)

/-- **The holes.**  After the I2S on the pins of UART0, the SSI leaves the highest bit of
their fields set, since its writes are three bits wide; and `gpio_enable` of pin 47 writes
into the field of the pins 40 to 45. -/
theorem not_lastWriterWins_narrow :
    (exec padStep cleared [.pmxEnable audioFuncSelect i2sxb2GroupSelect,
        .pmxEnable ssiFuncSelect ssiGroupSelect]).map
        (fun rtspc => (rtspc.padValue ⟨uart0PadCfg, 4, 0⟩, decide (LastWriterWins cleared rtspc
          [.pmxEnable audioFuncSelect i2sxb2GroupSelect,
            .pmxEnable ssiFuncSelect ssiGroupSelect]))) = some (12, false) ∧
      (PadOp.pmxEnable ssiFuncSelect ssiGroupSelect).selects ⟨uart0PadCfg, 4, 0⟩ = some 4 ∧
      (exec padStep cleared [.gpioEnable 47]).map
        (fun rtspc => (rtspc.padValue ⟨sd1PadCfg, 4, 0⟩, decide (LastWriterWins cleared rtspc
          [.gpioEnable 47]))) = some (4, false) := by
  decide +kernel

end RealtekIpcam.Pinctrl
