import RealtekIpcam.Pinctrl.Driver

/-!
# Configuring a group of pins

`rts_pinconf_group_set` applies a list of packed configurations to every pin of a group.  A
configuration asks for a value of one field of the pin: its pull, drive strength, slew rate or
direction.  `GroupConfigured` is what the call is there for: afterwards every field of every pin of
the group has the value that the last configuration for it asks for, and nothing else has changed.

Two things stand in the way.  The group `spigrp` has pins that no entry of `pincfgaddr` covers, and
`rts_get_pinaddr` yields a null pointer for them.  And when a configuration is rejected the rest of
the list is left out, with an error that the loop over the pins drops.  `groupSetOk_iff` says that
there is nothing more.

A packed configuration is taken apart by the generic pin configuration, of which the source has
only the names; `Packing` stands for it.
-/

namespace RealtekIpcam.Pinctrl

open BitField

/-! ## The driver -/

/-- `pinconf_to_config_param`, as one of the constants of `rts_gpio_config_set`, and
`pinconf_to_config_argument`. -/
structure Packing where
  param : Word → PinConfig
  argument : Word → Word

namespace RtsPinctrl

variable (packing : Packing)

def rtsPinConfigSet (rtspc : RtsPinctrl) (pin : Nat) (param : Word) : Option (Int × RtsPinctrl) :=
  rtspc.rtsGpioConfigSet pin (packing.param param) (packing.argument param)

/-- `rts_pinconf_set`.  The `unsigned long` of a configuration becomes an `unsigned int`. -/
def rtsPinconfSet (rtspc : RtsPinctrl) (pin : Nat) : List (BitVec 64) → Option (Int × RtsPinctrl)
  | [] => some (0, rtspc)
  | config :: configs =>
    (rtspc.rtsPinConfigSet packing pin (config.setWidth 32)).bind fun r =>
      if r.1 ≠ 0 then some r else r.2.rtsPinconfSet pin configs

def rtsPinconfGroupSet (rtspc : RtsPinctrl) (group : Nat) (configs : List (BitVec 64)) :
    Option (Int × RtsPinctrl) :=
  rtsPinGroups[group]?.bind fun pins =>
    (pins.foldlM (fun (rtspc : RtsPinctrl) pin =>
        (rtspc.rtsPinconfSet packing pin configs).map Prod.snd)
      rtspc).map fun rtspc => (0, rtspc)

end RtsPinctrl

/-! ## The fields of a pin -/

/-- The fields of a pin that a configuration can change. -/
inductive PinField where
  | pull | drive | slew | direction
  deriving DecidableEq

namespace PinField

/-- The register of the field, from the first register of the group. -/
def off : PinField → Nat
  | .pull => pinregsPullctrl
  | .drive => pinregsDrvSel
  | .slew => pinregsSrCtrl
  | .direction => pinregsGpioOe

def width : PinField → Nat
  | .pull => 2
  | .drive | .slew | .direction => 1

/-- The write of a value to the field of a pin. -/
def writeTo (f : PinField) (sc : SharepinCfgAddr) (pin : Nat) (value : Word) : FieldWrite :=
  ⟨sc.pinaddr + f.off, value, f.width, (pin - sc.pinl) * f.width⟩

/-- The bit of the register belongs to the field of the pin. -/
def At (f : PinField) (pin reg bit : Nat) : Prop :=
  ∃ sc, rtsGetPinaddr pin = some sc ∧ (f.writeTo sc pin 0).Covers reg bit

end PinField

/-- The field that a configuration is for, and the value it asks for. -/
def PinConfig.setting (config : PinConfig) (value : Word) : Option (PinField × Word) :=
  match config with
  | .pullNone => some (.pull, 0)
  | .pullDown => some (.pull, 1)
  | .pullUp => some (.pull, 2)
  | .driveStrength => some (.drive, value >>> 2 - 1)
  | .slewRate => some (.slew, value)
  | .input => some (.direction, 0)
  | .output => some (.direction, 1)
  | .other => none

def RtsPinctrl.pinField (rtspc : RtsPinctrl) (pin : Nat) (f : PinField) : Word :=
  match rtsGetPinaddr pin with
  | some sc => getField (rtspc.regs (sc.pinaddr + f.off)) f.width ((pin - sc.pinl) * f.width)
  | none => 0

namespace Packing

variable (packing : Packing)

def setting (config : BitVec 64) : Option (PinField × Word) :=
  (packing.param (config.setWidth 32)).setting (packing.argument (config.setWidth 32))

/-- What the last configuration for the field asks for. -/
def lastSetting : List (BitVec 64) → PinField → Option Word
  | [], _ => none
  | config :: configs, f =>
    (lastSetting configs f).or
      ((packing.setting config).bind fun s => if s.1 = f then some s.2 else none)

/-- The driver knows the kind of the configuration. -/
def Known (config : BitVec 64) : Prop := packing.param (config.setWidth 32) ≠ .other
  deriving Decidable

end Packing

/-- Every configuration is applied to every pin, and nothing else is changed. -/
structure GroupConfigured (packing : Packing) (pins : List Nat) (configs : List (BitVec 64))
    (before after : RtsPinctrl) : Prop where
  applied : ∀ pin ∈ pins, ∀ f, after.pinField pin f =
    ((packing.lastSetting configs f).map (· &&& fieldMask f.width)).getD (before.pinField pin f)
  others : ∀ pin, pin ∉ pins → ∀ f, after.pinField pin f = before.pinField pin f
  frame : ∀ reg bit, (∀ pin ∈ pins, ∀ f : PinField, ¬ f.At pin reg bit) →
    (after.regs reg).getLsbD bit = (before.regs reg).getLsbD bit

/-- The driver refuses the configuration for the pin. -/
def RtsPinctrl.Rejects (rtspc : RtsPinctrl) (packing : Packing) (pin : Nat) (config : BitVec 64) :
    Prop :=
  ∃ r, rtspc.rtsPinConfigSet packing pin (config.setWidth 32) = some r ∧ r.1 ≠ 0

/-- No null pointer is met, the group is configured, and a rejection is an error of the call. -/
def GroupSetOk (packing : Packing) (rtspc : RtsPinctrl) (group : Nat) (pins : List Nat)
    (configs : List (BitVec 64)) : Prop :=
  ∃ ret rtspc', rtspc.rtsPinconfGroupSet packing group configs = some (ret, rtspc') ∧
    GroupConfigured packing pins configs rtspc rtspc' ∧
    ((∃ pin ∈ pins, ∃ config ∈ configs, rtspc.Rejects packing pin config) → ret ≠ 0)

/-! ## The fields lie apart -/

variable {packing : Packing} {rtspc rtspc' : RtsPinctrl} {pin pin' reg bit i : Nat}
  {sc sc' : SharepinCfgAddr} {f f' : PinField} {config : BitVec 64} {configs : List (BitVec 64)}
  {pins : List Nat} {kind : PinConfig} {value : Word}

theorem PinField.off_lt (f : PinField) : f.off < 0x20 := by
  cases f <;> decide

theorem PinField.off_inj : ∀ {f f' : PinField}, f.off = f'.off → f = f' := by
  rintro ⟨⟩ ⟨⟩ h <;> first | rfl | exact absurd h (by decide)

theorem PinField.width_bounds (f : PinField) : 0 < f.width ∧ f.width ≤ 2 := by
  cases f <;> decide

theorem off_notMem : ∀ sc ∈ pincfgaddr, ∀ f : PinField, sc.pinaddr + f.off ∉ readsZero := by
  have h : ∀ sc ∈ pincfgaddr, ∀ f ∈ [PinField.pull, .drive, .slew, .direction],
    sc.pinaddr + f.off ∉ readsZero := by decide
  intro sc hmem f
  exact h sc hmem f (by cases f <;> decide)

theorem PinField.place_le (h : rtsGetPinaddr pin = some sc) (hi : i < f.width) :
    (pin - sc.pinl) * f.width + i < 32 := by
  obtain ⟨hmem, hlo, hhi⟩ := rtsGetPinaddr_mem h
  have hwidth := pincfgaddr_width sc hmem
  have hmul : (pin - sc.pinl) * f.width ≤ 15 * f.width :=
    Nat.mul_le_mul_right _ (by omega)
  have := f.width_bounds
  omega

theorem PinField.at_inj (h : f.At pin reg bit) (h' : f'.At pin' reg bit) :
    pin = pin' ∧ f = f' := by
  obtain ⟨sc, hsc, hreg, hlo, hhi⟩ := h
  obtain ⟨sc', hsc', hreg', hlo', hhi'⟩ := h'
  obtain ⟨hmem, hpinl, -⟩ := rtsGetPinaddr_mem hsc
  obtain ⟨hmem', hpinl', -⟩ := rtsGetPinaddr_mem hsc'
  obtain ⟨rfl, hoff⟩ := pinaddr_inj hmem hmem' f.off_lt f'.off_lt (hreg.trans hreg'.symm)
  obtain rfl := PinField.off_inj hoff
  refine ⟨?_, rfl⟩
  have hpos := f.width_bounds.1
  have hdiv (p : Nat) (hle : p * f.width ≤ bit) (hlt : bit < p * f.width + f.width) :
      bit / f.width = p :=
    (Nat.div_eq_iff hpos).mpr ⟨hle, by omega⟩
  have hp := hdiv _ hlo hhi
  have hp' := hdiv _ hlo' hhi'
  omega

/-- **A configuration.**  For a pin with an entry, a configuration of a known kind is one write to
the field that it is for, and an unknown one is refused. -/
theorem rtsGpioConfigSet_spec (h : rtsGetPinaddr pin = some sc) (rtspc : RtsPinctrl)
    (kind : PinConfig) (value : Word) :
    match kind.setting value with
    | some (f, v) => ∃ rtspc', rtspc.rtsGpioConfigSet pin kind value = some (0, rtspc') ∧
        rtspc'.regs = write rtspc.regs (f.writeTo sc pin v)
    | none => rtspc.rtsGpioConfigSet pin kind value = some (-EINVAL, rtspc) := by
  obtain ⟨hmem, hlo, hhi⟩ := rtsGetPinaddr_mem h
  have hgpio : pin < rtsMaxNgpio := Nat.lt_of_le_of_lt hhi (pincfgaddr_width sc hmem).2
  have hwrite (f : PinField) (v : Word) : (rtspc.rtsGpioSetField (sc.pinaddr + f.off) v f.width
      ((pin - sc.pinl) * f.width)).regs = write rtspc.regs (f.writeTo sc pin v) := by
    have hread : rtspc.readl (sc.pinaddr + f.off) = rtspc.regs (sc.pinaddr + f.off) :=
      if_neg (off_notMem sc hmem f)
    unfold RtsPinctrl.rtsGpioSetField RtsPinctrl.writel
    rw [hread]
    rfl
  have hone : (pin - sc.pinl) * 1 = pin - sc.pinl := Nat.mul_one _
  unfold RtsPinctrl.rtsGpioConfigSet
  rw [h]
  cases kind with
  | pullNone => exact ⟨_, rfl, hwrite .pull 0⟩
  | pullDown => exact ⟨_, rfl, hwrite .pull 1⟩
  | pullUp => exact ⟨_, rfl, hwrite .pull 2⟩
  | driveStrength => exact ⟨_, rfl, hone ▸ hwrite .drive _⟩
  | slewRate => exact ⟨_, rfl, hone ▸ hwrite .slew _⟩
  | input =>
    refine ⟨_, rfl, ?_⟩
    rw [if_pos hgpio]
    exact hone ▸ hwrite .direction 0
  | output =>
    refine ⟨_, rfl, ?_⟩
    rw [if_pos hgpio]
    exact hone ▸ hwrite .direction 1
  | other => rfl

theorem getLsbD_writeTo (h : rtsGetPinaddr pin = some sc) (f : PinField) (v : Word) {regs : Regs}
    (hfree : ¬ f.At pin reg bit) :
    (write regs (f.writeTo sc pin v) reg).getLsbD bit = (regs reg).getLsbD bit := by
  by_cases hbit : bit < 32
  · have hwidth : (f.writeTo sc pin v).width < 32 := by
      have := f.width_bounds.2
      show f.width < 32
      omega
    rw [getLsbD_write hwidth hbit]
    exact if_neg fun hcov => hfree ⟨sc, h, hcov⟩
  · rw [BitVec.getLsbD_of_ge _ _ (Nat.le_of_not_lt hbit),
      BitVec.getLsbD_of_ge _ _ (Nat.le_of_not_lt hbit)]

theorem pinField_eq (h : rtsGetPinaddr pin = some sc) (f : PinField) : rtspc.pinField pin f =
    getField (rtspc.regs (sc.pinaddr + f.off)) f.width ((pin - sc.pinl) * f.width) := by
  unfold RtsPinctrl.pinField
  rw [h]

theorem pinField_writeTo (h : rtsGetPinaddr pin = some sc) (v : Word)
    (hregs : rtspc'.regs = write rtspc.regs (f.writeTo sc pin v)) (pin' : Nat) (f' : PinField) :
    rtspc'.pinField pin' f' =
      if pin' = pin ∧ f' = f then v &&& fieldMask f.width else rtspc.pinField pin' f' := by
  cases h' : rtsGetPinaddr pin' with
  | none =>
    have hne : pin' ≠ pin := by
      rintro rfl
      exact Option.some_ne_none sc (h.symm.trans h')
    rw [if_neg fun heq => hne heq.1]
    unfold RtsPinctrl.pinField
    rw [h']
  | some sc' =>
    have hwidth (f : PinField) : f.width < 32 := by
      have := f.width_bounds.2
      omega
    apply BitVec.eq_of_getLsbD_eq
    intro i _
    rw [pinField_eq h', pinField_eq h', getLsbD_getField (hwidth f'), hregs]
    by_cases hi : i < f'.width
    · rw [decide_eq_true hi, Bool.true_and]
      have hat : f'.At pin' (sc'.pinaddr + f'.off) ((pin' - sc'.pinl) * f'.width + i) :=
        ⟨sc', h', rfl, Nat.le_add_right _ _, Nat.add_lt_add_left hi _⟩
      by_cases heq : pin' = pin ∧ f' = f
      · obtain ⟨rfl, rfl⟩ := heq
        obtain rfl : sc' = sc := Option.some_inj.mp (h'.symm.trans h)
        rw [getLsbD_write (hwidth f') (PinField.place_le h hi),
          if_pos ⟨rfl, Nat.le_add_right _ _, Nat.add_lt_add_left hi _⟩, if_pos ⟨rfl, rfl⟩,
          BitVec.getLsbD_and, getLsbD_fieldMask (hwidth f'), decide_eq_true hi, Bool.and_true]
        show v.getLsbD (_ - (pin' - sc'.pinl) * f'.width) = _
        rw [Nat.add_sub_cancel_left]
      · rw [if_neg heq, getLsbD_getField (hwidth f'), decide_eq_true hi, Bool.true_and]
        exact getLsbD_writeTo h f v fun hat' => heq (PinField.at_inj hat hat')
    · rw [decide_eq_false hi, Bool.false_and]
      split
      · next heq =>
        rw [BitVec.getLsbD_and, getLsbD_fieldMask (hwidth f), ← heq.2, decide_eq_false hi,
          Bool.and_false]
      · rw [getLsbD_getField (hwidth f'), decide_eq_false hi, Bool.false_and]

/-! ## The lists -/

theorem setting_isSome_of_known (hknown : packing.Known config) :
    ∃ f v, packing.setting config = some (f, v) := by
  unfold Packing.Known at hknown
  unfold Packing.setting
  cases hparam : packing.param (config.setWidth 32) with
  | other => exact absurd hparam hknown
  | pullNone | pullDown | pullUp | driveStrength | slewRate | input | output =>
    exact ⟨_, _, rfl⟩

variable (packing rtspc) in
/-- **A pin.**  When all configurations are known, they are applied to the pin, and nothing else is
changed. -/
theorem rtsPinconfSet_spec (h : rtsGetPinaddr pin = some sc)
    (hknown : ∀ config ∈ configs, packing.Known config) :
    ∃ rtspc', rtspc.rtsPinconfSet packing pin configs = some (0, rtspc') ∧
      (∀ pin' f', rtspc'.pinField pin' f' = if pin' = pin then
          ((packing.lastSetting configs f').map (· &&& fieldMask f'.width)).getD
            (rtspc.pinField pin' f')
        else rtspc.pinField pin' f') ∧
      ∀ reg bit, (∀ f : PinField, ¬ f.At pin reg bit) →
        (rtspc'.regs reg).getLsbD bit = (rtspc.regs reg).getLsbD bit := by
  induction configs generalizing rtspc with
  | nil => exact ⟨rtspc, rfl, fun _ _ => (ite_self _).symm, fun _ _ _ => rfl⟩
  | cons config configs ih =>
    obtain ⟨f, v, hsetting⟩ := setting_isSome_of_known (hknown config List.mem_cons_self)
    have hspec := rtsGpioConfigSet_spec h rtspc (packing.param (config.setWidth 32))
      (packing.argument (config.setWidth 32))
    have hlast (f' : PinField) : packing.lastSetting (config :: configs) f' =
        (packing.lastSetting configs f').or (if f = f' then some v else none) := by
      show (packing.lastSetting configs f').or ((packing.setting config).bind _) = _
      rw [hsetting]
      rfl
    unfold Packing.setting at hsetting
    rw [hsetting] at hspec
    obtain ⟨mid, hmid, hregs⟩ := hspec
    obtain ⟨rtspc', hrun, hfields, hframe⟩ :=
      ih mid fun c hmem => hknown c (List.mem_cons_of_mem config hmem)
    refine ⟨rtspc', ?_, fun pin' f' => ?_, fun reg bit hfree => ?_⟩
    · unfold RtsPinctrl.rtsPinconfSet RtsPinctrl.rtsPinConfigSet
      rw [hmid]
      exact hrun
    · rw [hfields, pinField_writeTo h v hregs]
      by_cases hpin : pin' = pin
      · rw [if_pos hpin, if_pos hpin, hlast]
        cases packing.lastSetting configs f' with
        | some last => rfl
        | none =>
          by_cases hf : f' = f
          · subst hf
            rw [if_pos ⟨hpin, rfl⟩, if_pos rfl]
            rfl
          · rw [if_neg fun heq => hf heq.2, if_neg (Ne.symm hf)]
            rfl
      · rw [if_neg hpin, if_neg hpin, if_neg fun heq => hpin heq.1]
    · rw [hframe reg bit hfree, hregs]
      exact getLsbD_writeTo h f v (hfree f)

variable (packing rtspc) in
theorem foldlM_rtsPinconfSet (hpins : ∀ pin ∈ pins, (rtsGetPinaddr pin).isSome)
    (hknown : ∀ config ∈ configs, packing.Known config) :
    ∃ rtspc', pins.foldlM (fun (rtspc : RtsPinctrl) pin =>
        (rtspc.rtsPinconfSet packing pin configs).map Prod.snd) rtspc = some rtspc' ∧
      (∀ pin' f', rtspc'.pinField pin' f' = if pin' ∈ pins then
          ((packing.lastSetting configs f').map (· &&& fieldMask f'.width)).getD
            (rtspc.pinField pin' f')
        else rtspc.pinField pin' f') ∧
      ∀ reg bit, (∀ pin ∈ pins, ∀ f : PinField, ¬ f.At pin reg bit) →
        (rtspc'.regs reg).getLsbD bit = (rtspc.regs reg).getLsbD bit := by
  induction pins generalizing rtspc with
  | nil => exact ⟨rtspc, rfl, fun _ _ => (if_neg List.not_mem_nil).symm, fun _ _ _ => rfl⟩
  | cons pin pins ih =>
    obtain ⟨sc, hsc⟩ := Option.isSome_iff_exists.mp (hpins pin List.mem_cons_self)
    obtain ⟨mid, hmid, hmidFields, hmidFrame⟩ := rtsPinconfSet_spec packing rtspc hsc hknown
    obtain ⟨rtspc', hrun, hfields, hframe⟩ :=
      ih mid fun p hmem => hpins p (List.mem_cons_of_mem pin hmem)
    refine ⟨rtspc', ?_, fun pin' f' => ?_, fun reg bit hfree => ?_⟩
    · rw [List.foldlM_cons, hmid]
      exact hrun
    · rw [hfields, hmidFields]
      simp only [List.mem_cons]
      -- A pin that the group lists twice is configured twice, the second time to no effect.
      by_cases hpin : pin' = pin
      · rw [if_pos hpin, if_pos (Or.inl hpin)]
        cases packing.lastSetting configs f' <;> simp
      · simp only [hpin, if_false, false_or]
    · rw [hframe reg bit fun p hmem => hfree p (List.mem_cons_of_mem pin hmem)]
      exact hmidFrame reg bit (hfree pin List.mem_cons_self)

theorem foldlM_rtsPinconfSet_nil (packing : Packing) (rtspc : RtsPinctrl) (pins : List Nat) :
    pins.foldlM (fun (rtspc : RtsPinctrl) pin =>
      (rtspc.rtsPinconfSet packing pin []).map Prod.snd) rtspc = some rtspc := by
  induction pins with
  | nil => rfl
  | cons pin pins ih => exact ih

theorem rtsPinConfigSet_ret {r : Int × RtsPinctrl} (h : rtsGetPinaddr pin = some sc)
    (hknown : packing.Known config)
    (hr : rtspc.rtsPinConfigSet packing pin (config.setWidth 32) = some r) : r.1 = 0 := by
  obtain ⟨f, v, hsetting⟩ := setting_isSome_of_known hknown
  have hspec := rtsGpioConfigSet_spec h rtspc (packing.param (config.setWidth 32))
    (packing.argument (config.setWidth 32))
  unfold Packing.setting at hsetting
  rw [hsetting] at hspec
  obtain ⟨rtspc', hrun, -⟩ := hspec
  exact (congrArg Prod.fst (Option.some_inj.mp (hrun.symm.trans hr))).symm

theorem rejects_of_not_known (h : rtsGetPinaddr pin = some sc) (rtspc : RtsPinctrl)
    (hother : ¬ packing.Known config) : rtspc.Rejects packing pin config := by
  have hparam : packing.param (config.setWidth 32) = .other := not_not.mp hother
  refine ⟨(-EINVAL, rtspc), ?_, by show (-EINVAL : Int) ≠ 0; decide⟩
  unfold RtsPinctrl.rtsPinConfigSet
  rw [hparam]
  exact rtsGpioConfigSet_spec h rtspc .other (packing.argument (config.setWidth 32))

theorem foldlM_rtsPinconfSet_none (hconfigs : configs ≠ []) (hmem : pin ∈ pins)
    (hpin : rtsGetPinaddr pin = none) (rtspc : RtsPinctrl) :
    pins.foldlM (fun (rtspc : RtsPinctrl) pin =>
      (rtspc.rtsPinconfSet packing pin configs).map Prod.snd) rtspc = none := by
  obtain ⟨config, rest, rfl⟩ := List.exists_cons_of_ne_nil hconfigs
  have hnull (rtspc : RtsPinctrl) :
      rtspc.rtsPinconfSet packing pin (config :: rest) = none := by
    unfold RtsPinctrl.rtsPinconfSet RtsPinctrl.rtsPinConfigSet RtsPinctrl.rtsGpioConfigSet
    rw [hpin]
    rfl
  induction pins generalizing rtspc with
  | nil => cases hmem
  | cons p pins ih =>
    rw [List.foldlM_cons]
    rcases List.mem_cons.mp hmem with rfl | hmem
    · rw [hnull]
      rfl
    · cases (rtspc.rtsPinconfSet packing p (config :: rest)).map Prod.snd with
      | none => rfl
      | some mid => exact ih hmem mid

theorem rtsGetPinaddr_isSome_iff : ∀ group < rtsPinGroups.length,
    (∀ pin ∈ rtsPinGroups.getD group [], (rtsGetPinaddr pin).isSome) ↔ group ≠ spiGroupSelect := by
  decide +kernel

theorem rtsPinconfGroupSet_ret {ret : Int} {group : Nat}
    (h : rtspc.rtsPinconfGroupSet packing group configs = some (ret, rtspc')) : ret = 0 := by
  unfold RtsPinctrl.rtsPinconfGroupSet at h
  obtain ⟨pins, -, hmap⟩ := Option.bind_eq_some_iff.mp h
  obtain ⟨u, -, heq⟩ := Option.map_eq_some_iff.mp hmap
  exact (congrArg Prod.fst heq).symm

/-- **Configuring a group.**  With a list of configurations that is not empty, the call does what it
is there for exactly for the groups whose pins all have registers, and, unless the group has no pin
at all, for lists without an unknown configuration. -/
theorem groupSetOk_iff {group : Nat} (hgroup : rtsPinGroups[group]? = some pins)
    (packing : Packing) (rtspc : RtsPinctrl) (configs : List (BitVec 64)) :
    GroupSetOk packing rtspc group pins configs ↔
      configs = [] ∨ group ≠ spiGroupSelect ∧
        (pins = [] ∨ ∀ config ∈ configs, packing.Known config) := by
  obtain ⟨hlt, hget⟩ := List.getElem?_eq_some_iff.mp hgroup
  have hpins := rtsGetPinaddr_isSome_iff group hlt
  rw [List.getD_eq_getElem?_getD, hgroup, Option.getD_some] at hpins
  constructor
  · rintro ⟨ret, rtspc', hrun, -, herr⟩
    by_contra hnot
    obtain ⟨hconfigs, hrest⟩ := not_or.mp hnot
    by_cases hspi : group = spiGroupSelect
    · obtain ⟨pin, hmem, hpin⟩ : ∃ pin ∈ pins, rtsGetPinaddr pin = none := by
        by_contra hall
        refine hpins.mp (fun pin hmem => ?_) hspi
        exact Option.isSome_iff_ne_none.mpr fun hpin => hall ⟨pin, hmem, hpin⟩
      unfold RtsPinctrl.rtsPinconfGroupSet at hrun
      rw [hgroup, Option.bind_some, foldlM_rtsPinconfSet_none hconfigs hmem hpin] at hrun
      exact absurd hrun (by simp)
    · obtain ⟨hne, hunknown⟩ := not_or.mp fun h => hrest ⟨hspi, h⟩
      obtain ⟨pin, pins', rfl⟩ := List.exists_cons_of_ne_nil hne
      obtain ⟨sc, hsc⟩ :=
        Option.isSome_iff_exists.mp (hpins.mpr hspi pin List.mem_cons_self)
      obtain ⟨config, hunknown⟩ := not_forall.mp hunknown
      obtain ⟨hconfig, hother⟩ := Classical.not_imp.mp hunknown
      have hreject := rejects_of_not_known hsc rtspc hother
      exact herr ⟨pin, List.mem_cons_self, config, hconfig, hreject⟩ (rtsPinconfGroupSet_ret hrun)
  · intro hcond
    have hrunOk (rtspc' : RtsPinctrl)
        (hrun : pins.foldlM (fun (rtspc : RtsPinctrl) pin =>
          (rtspc.rtsPinconfSet packing pin configs).map Prod.snd) rtspc = some rtspc') :
        rtspc.rtsPinconfGroupSet packing group configs = some (0, rtspc') := by
      unfold RtsPinctrl.rtsPinconfGroupSet
      rw [hgroup, Option.bind_some, hrun]
      rfl
    rcases hcond with rfl | ⟨hspi, rfl | hknown⟩
    · refine ⟨0, rtspc, hrunOk rtspc (foldlM_rtsPinconfSet_nil packing rtspc pins),
        ⟨fun _ _ _ => rfl, fun _ _ _ => rfl, fun _ _ _ => rfl⟩, ?_⟩
      rintro ⟨-, -, config, hmem, -⟩
      cases hmem
    · refine ⟨0, rtspc, hrunOk rtspc rfl,
        ⟨nofun, fun _ _ _ => rfl, fun _ _ _ => rfl⟩, ?_⟩
      rintro ⟨pin, hmem, -⟩
      cases hmem
    · obtain ⟨rtspc', hrun, hfields, hframe⟩ :=
        foldlM_rtsPinconfSet packing rtspc (hpins.mpr hspi) hknown
      refine ⟨0, rtspc', hrunOk rtspc' hrun, ⟨fun pin hmem f => ?_, fun pin hmem f => ?_, hframe⟩,
        ?_⟩
      · rw [hfields, if_pos hmem]
      · rw [hfields, if_neg hmem]
      · rintro ⟨pin, hmem, config, hconfig, r, hr, hne⟩
        obtain ⟨sc, hsc⟩ := Option.isSome_iff_exists.mp (hpins.mpr hspi pin hmem)
        exact absurd (rtsPinConfigSet_ret hsc (hknown config hconfig) hr) hne

/-- A low byte for the kind, numbered as the generic pin configuration numbers its parameters, and
the argument above it. -/
def lowByte : Packing where
  param config :=
    let kind := (config &&& 0xff#32).toNat
    if kind = 1 then .pullNone
    else if kind = 3 then .pullDown
    else if kind = 5 then .pullUp
    else if kind = 9 then .driveStrength
    else if kind = 12 then .input
    else if kind = 16 then .output
    else if kind = 20 then .slewRate
    else .other
  argument config := config >>> 8

theorem groupSetOk_uart0 :
    GroupSetOk lowByte cleared uart0GroupSelect [16, 17, 18, 19] [5, 0x809] := by
  have hknown : ∀ config ∈ [5, 0x809], lowByte.Known config :=
    List.forall_mem_cons.mpr ⟨by decide, List.forall_mem_singleton.mpr (by decide)⟩
  exact (groupSetOk_iff rfl lowByte cleared [5, 0x809]).mpr (.inr ⟨by decide, .inr hknown⟩)

/-- **The holes.**  A pull-up for `spigrp` meets the null pointer of pin 89.  For `uart0grp`, the
list of an unknown kind and a pull-up pulls no pin up, and the call returns 0. -/
theorem not_groupSetOk_spi_uart0 :
    ¬ GroupSetOk lowByte cleared spiGroupSelect [87, 88, 89, 90, 91, 92] [5] ∧
      ¬ GroupSetOk lowByte cleared uart0GroupSelect [16, 17, 18, 19] [0, 5] := by
  constructor
  · rintro ⟨ret, rtspc', hrun, -⟩
    have hnone : (cleared.rtsPinconfGroupSet lowByte spiGroupSelect [5]).isNone := by
      decide +kernel
    rw [hrun] at hnone
    exact Bool.false_ne_true hnone
  · rintro ⟨ret, rtspc', hrun, -, herr⟩
    have huart0 : rtsGetPinaddr 16 = some ⟨16, 19, .uart0, uart0GpioOe⟩ := rfl
    have hreject : cleared.Rejects lowByte 16 0 :=
      rejects_of_not_known huart0 cleared (by decide)
    exact herr ⟨16, by decide, 0, by decide, hreject⟩ (rtsPinconfGroupSet_ret hrun)

end RealtekIpcam.Pinctrl
