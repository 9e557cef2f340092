import RealtekIpcam.Lib.Runs
import RealtekIpcam.Pinctrl.PinClaims

/-!
# Who owns a pin

The RTS3917 driver under the pinmux core.  Ownership of a pin is kept three times: as a count
and two names in the core, as a bit of `pinsmask` in the driver, and as a reference to the
driver's module.  `Agrees` says that they say the same; it follows the book of claims
(`rtsKeeper`), so that no mix of settings and GPIOs, with whatever failures and rollbacks,
takes them apart.

The core does not tell the driver about a claim beyond the first, and a driver that has the
bit set refuses.  That is what keeps the count from wrapping: the claim that would wrap it
looks like a first one and is refused.
-/

namespace RealtekIpcam.Pinctrl

/-! ## The driver under the core -/

/-- `rts_pmx_ops` and `rts_rtspctl_ops`.  References to the module can always be had, and are
counted. -/
def rtsPmxOps : PinmuxOps (RtsPinctrl × Nat) where
  strict := false
  getGroupPins := some fun group => (0, rtsPinGroups.getD group [])
  request := some fun drv pin => ((drv.1.rtsPmxRequest pin).1, (drv.1.rtsPmxRequest pin).2, drv.2)
  free := some fun drv pin => ((drv.1.rtsPmxFree pin).2, drv.2)
  gpioRequestEnable := none
  gpioDisableFree := none
  setMux := fun drv func group =>
    ((drv.1.rtsPmxEnable func group).1, (drv.1.rtsPmxEnable func group).2, drv.2)
  tryModuleGet := fun drv => (true, drv.1, drv.2 + 1)
  modulePut := fun drv => (drv.1, drv.2 - 1)

/-- The number of pins in `rts_pins`. -/
def rtsNumPins : Nat := 93

/-- The controller after its probe: the pins are registered, and nobody has any of them. -/
def probed (rtspc : RtsPinctrl) : PinctrlDev (RtsPinctrl × Nat) where
  desc := fun pin => if pin < rtsNumPins then some ⟨0, none, none, none⟩ else none
  drv := ({ rtspc with pinsmask := (0, 0) }, 0)

/-- The bit of a pin in `pinsmask`. -/
def RtsPinctrl.maskBit (rtspc : RtsPinctrl) (pin : Nat) : Bool :=
  if pin > 63 then rtspc.pinsmask.2.getLsbD (pin - 64) else rtspc.pinsmask.1.getLsbD pin

def PinDesc.owned (d : PinDesc) : Bool := d.muxOwner.isSome || d.gpioOwner.isSome

def PinctrlDev.owned {δ : Type} (dev : PinctrlDev δ) (pin : Nat) : Bool :=
  (dev.desc pin).any PinDesc.owned

/-- The operations of the core's users. -/
inductive PinmuxOp where
  | enableSetting (setting : PinctrlSetting)
  | disableSetting (setting : PinctrlSetting)
  | requestGpio (pin : Nat) (owner : Option String)
  | freeGpio (pin : Nat)
  deriving DecidableEq

/-- The controller, with the settings and GPIOs that were obtained and not given back. -/
structure PinmuxState (δ : Type) where
  dev : PinctrlDev δ
  enabled : List PinctrlSetting
  gpios : List Nat

/-- One operation.  Only what was obtained is given back. -/
def pinmuxStep {δ : Type} (ops : PinmuxOps δ) (s : PinmuxState δ) :
    PinmuxOp → Option (PinmuxState δ)
  | .enableSetting setting =>
    let r := ops.pinmuxEnableSetting s.dev setting
    some { s with dev := r.2, enabled := if r.1 = 0 then setting :: s.enabled else s.enabled }
  | .disableSetting setting =>
    if setting ∈ s.enabled then
      some { s with
        dev := ops.pinmuxDisableSetting s.dev setting
        enabled := s.enabled.erase setting }
    else none
  | .requestGpio pin owner =>
    let r := ops.pinmuxRequestGpio s.dev pin owner
    some { s with dev := r.2, gpios := if r.1 = 0 then pin :: s.gpios else s.gpios }
  | .freeGpio pin =>
    if pin ∈ s.gpios then
      some { s with dev := ops.pinmuxFreeGpio s.dev pin, gpios := s.gpios.erase pin }
    else none

/-- The descriptors, the mask and the references agree about every pin. -/
structure Agrees (dev : PinctrlDev (RtsPinctrl × Nat)) : Prop where
  registered : ∀ pin, (dev.desc pin).isSome ↔ pin < rtsNumPins
  mask : ∀ pin < rtsNumPins, dev.drv.1.maskBit pin = dev.owned pin
  one : ∀ pin d, dev.desc pin = some d → d.muxOwner = none ∨ d.gpioOwner = none
  refs : dev.drv.2 = (List.range rtsNumPins).countP dev.owned

/-- What holds of a pin in every state: its count and owner, its bit, its one kind of owner, and one
name in all claims on it; and the number of references. -/
structure PinOwned (s : PinmuxState (RtsPinctrl × Nat)) : Prop where
  usecount : ∀ pin d, s.dev.desc pin = some d → (0 < d.muxUsecount ↔ d.muxOwner.isSome)
  mask : ∀ pin d, s.dev.desc pin = some d →
    (s.dev.drv.1.maskBit pin = true ↔ d.muxOwner.isSome ∨ d.gpioOwner.isSome)
  one : ∀ pin d, s.dev.desc pin = some d → ¬ (d.muxOwner.isSome ∧ d.gpioOwner.isSome)
  claims : ∀ pin d, s.dev.desc pin = some d → ∀ setting ∈ s.enabled,
    pin ∈ rtsPmxOps.groupPins setting.group → d.muxOwner = some setting.devName
  refs : s.dev.drv.2 = ((List.range rtsNumPins).filter s.dev.owned).length

/-! ## The driver's callbacks -/

variable {dev dev' : PinctrlDev (RtsPinctrl × Nat)} {rtspc : RtsPinctrl} {pin q refs : Nat}
  {claims : List Claim} {owner : String} {gpioRange : Bool}

theorem and_bit_eq_zero {v : BitVec 64} {n : Nat} (hn : n < 64) :
    v &&& 1#64 <<< n = 0 ↔ v.getLsbD n = false := by
  rw [← not_iff_not, Bool.not_eq_false]
  exact BitField.and_one_shiftLeft_ne_zero hn

theorem getLsbD_orBit {v : BitVec 64} {n i : Nat} (hi : i < 64) :
    (v ||| 1#64 <<< n).getLsbD i = if i = n then true else v.getLsbD i := by
  rw [BitVec.getLsbD_or, BitField.getLsbD_one_shiftLeft hi]
  by_cases heq : i = n <;> simp [heq]

theorem getLsbD_andNotBit {v : BitVec 64} {n i : Nat} (hi : i < 64) :
    (v &&& ~~~(1#64 <<< n)).getLsbD i = if i = n then false else v.getLsbD i := by
  rw [BitVec.getLsbD_and, BitVec.getLsbD_not, BitField.getLsbD_one_shiftLeft hi]
  by_cases heq : i = n <;> simp [heq, hi]

theorem maskBit_low {v : BitVec 64} {b : Bool} (hlow : ¬ pin > 63)
    (hv : ∀ i < 64, v.getLsbD i = if i = pin then b else rtspc.pinsmask.1.getLsbD i) :
    RtsPinctrl.maskBit { rtspc with pinsmask := (v, rtspc.pinsmask.2) } q =
      if q = pin then b else rtspc.maskBit q := by
  unfold RtsPinctrl.maskBit
  by_cases hq : q > 63
  · have hne : ¬ q = pin := by omega
    simp only [if_pos hq, if_neg hne]
  · simp only [if_neg hq, hv q (by omega)]

theorem maskBit_high {v : BitVec 64} {b : Bool} (hhigh : pin > 63) (hq : q < rtsNumPins)
    (hv : ∀ i < 64, v.getLsbD i = if i = pin - 64 then b else rtspc.pinsmask.2.getLsbD i) :
    RtsPinctrl.maskBit { rtspc with pinsmask := (rtspc.pinsmask.1, v) } q =
      if q = pin then b else rtspc.maskBit q := by
  unfold rtsNumPins at hq
  unfold RtsPinctrl.maskBit
  by_cases hq63 : q > 63
  · have hiff : q - 64 = pin - 64 ↔ q = pin := by omega
    simp only [if_pos hq63, hv (q - 64) (by omega), hiff]
  · have hne : ¬ q = pin := by omega
    simp only [if_neg hq63, if_neg hne]

variable (rtspc) in
/-- A request takes a pin whose bit is clear. -/
theorem rtsPmxRequest_spec (hpin : pin < rtsNumPins) :
    (rtspc.maskBit pin = true → rtspc.rtsPmxRequest pin = (-EBUSY, rtspc)) ∧
      (rtspc.maskBit pin = false → (rtspc.rtsPmxRequest pin).1 = 0 ∧
        ∀ q < rtsNumPins, (rtspc.rtsPmxRequest pin).2.maskBit q =
          if q = pin then true else rtspc.maskBit q) := by
  unfold rtsNumPins at hpin
  unfold RtsPinctrl.rtsPmxRequest
  rw [if_neg (by omega)]
  by_cases hhigh : pin > 63
  · have hbit := and_bit_eq_zero (v := rtspc.pinsmask.2) (n := pin - 64) (by omega)
    have hmask : rtspc.maskBit pin = rtspc.pinsmask.2.getLsbD (pin - 64) := if_pos hhigh
    rw [if_pos hhigh, hmask]
    refine ⟨fun hset => if_pos fun h0 => ?_, fun hclear => ?_⟩
    · rw [hbit.mp h0] at hset
      cases hset
    · dsimp only
      rw [if_neg (not_not_intro (hbit.mpr hclear))]
      exact ⟨rfl, fun q hq => maskBit_high hhigh hq fun i hi => getLsbD_orBit hi⟩
  · have hbit := and_bit_eq_zero (v := rtspc.pinsmask.1) (n := pin) (by omega)
    have hmask : rtspc.maskBit pin = rtspc.pinsmask.1.getLsbD pin := if_neg hhigh
    rw [if_neg hhigh, hmask]
    refine ⟨fun hset => if_pos fun h0 => ?_, fun hclear => ?_⟩
    · rw [hbit.mp h0] at hset
      cases hset
    · dsimp only
      rw [if_neg (not_not_intro (hbit.mpr hclear))]
      exact ⟨rfl, fun q _ => maskBit_low hhigh fun i hi => getLsbD_orBit hi⟩

/-- A free clears the bit of its pin. -/
theorem rtsPmxFree_spec (hpin : pin < rtsNumPins) (hset : rtspc.maskBit pin = true) :
    ∀ q < rtsNumPins, (rtspc.rtsPmxFree pin).2.maskBit q =
      if q = pin then false else rtspc.maskBit q := by
  unfold rtsNumPins at hpin
  unfold RtsPinctrl.rtsPmxFree
  rw [if_neg (by omega)]
  by_cases hhigh : pin > 63
  · have hbit := and_bit_eq_zero (v := rtspc.pinsmask.2) (n := pin - 64) (by omega)
    have hmask : rtspc.maskBit pin = rtspc.pinsmask.2.getLsbD (pin - 64) := if_pos hhigh
    rw [hmask] at hset
    rw [if_pos hhigh]
    dsimp only
    rw [if_pos fun h0 => by rw [hbit.mp h0] at hset; cases hset]
    exact fun q hq => maskBit_high hhigh hq fun i hi => getLsbD_andNotBit hi
  · have hbit := and_bit_eq_zero (v := rtspc.pinsmask.1) (n := pin) (by omega)
    have hmask : rtspc.maskBit pin = rtspc.pinsmask.1.getLsbD pin := if_neg hhigh
    rw [hmask] at hset
    rw [if_neg hhigh]
    dsimp only
    rw [if_pos fun h0 => by rw [hbit.mp h0] at hset; cases hset]
    exact fun q _ => maskBit_low hhigh fun i hi => getLsbD_andNotBit hi

theorem rtsPmxEnable_pinsmask (func group : Nat) :
    (rtspc.rtsPmxEnable func group).2.pinsmask = rtspc.pinsmask := by
  show (rtspc.setFields (pmxEnableWrites func group)).pinsmask = _
  induction pmxEnableWrites func group generalizing rtspc with
  | nil => rfl
  | cons w ws ih => exact ih

theorem rtsPmxRequest_eq_of_ne (h : (rtspc.rtsPmxRequest pin).1 ≠ 0) :
    (rtspc.rtsPmxRequest pin).2 = rtspc := by
  unfold RtsPinctrl.rtsPmxRequest at h ⊢
  dsimp only at h ⊢
  split
  · rfl
  rename_i hmax
  rw [if_neg hmax] at h
  split
  · rename_i hhigh
    rw [if_pos hhigh] at h
    split
    · rfl
    · rename_i hfree
      rw [if_neg hfree] at h
      exact absurd rfl h
  · rename_i hlow
    rw [if_neg hlow] at h
    split
    · rfl
    · rename_i hfree
      rw [if_neg hfree] at h
      exact absurd rfl h

theorem pinAcquire_rts (drv : RtsPinctrl × Nat) :
    rtsPmxOps.pinAcquire drv pin gpioRange =
      if (drv.1.rtsPmxRequest pin).1 ≠ 0 then
        ((drv.1.rtsPmxRequest pin).1, (drv.1.rtsPmxRequest pin).2, drv.2)
      else (0, (drv.1.rtsPmxRequest pin).2, drv.2 + 1) := by
  unfold PinmuxOps.pinAcquire
  cases gpioRange <;> rfl

theorem pinRelease_rts (drv : RtsPinctrl × Nat) :
    rtsPmxOps.pinRelease drv pin gpioRange = ((drv.1.rtsPmxFree pin).2, drv.2 - 1) := by
  unfold PinmuxOps.pinRelease
  cases gpioRange <;> rfl

/-! ## The records agree -/

theorem countP_range_update {f g : Nat → Bool} {n pin : Nat} (hpin : pin < n) (hf : f pin = true)
    (hg : g pin = false) (hother : ∀ q, q ≠ pin → f q = g q) :
    (List.range n).countP f = (List.range n).countP g + 1 := by
  induction n with
  | zero => exact absurd hpin (Nat.not_lt_zero pin)
  | succ n ih =>
    rw [List.range_succ, List.countP_append, List.countP_append]
    by_cases heq : pin = n
    · subst heq
      have hsame : (List.range pin).countP f = (List.range pin).countP g := by
        refine List.countP_congr fun q hq => ?_
        rw [hother q (Nat.ne_of_lt (List.mem_range.mp hq))]
      rw [hsame]
      simp [hf, hg]
    · have hlast : [n].countP f = [n].countP g := by
        refine List.countP_congr fun q hq => ?_
        rw [List.mem_singleton.mp hq, hother n (Ne.symm heq)]
      rw [ih (by omega), hlast]
      omega

variable {d d' : PinDesc}

theorem owned_eq (hd : dev.desc pin = some d) : dev.owned pin = d.owned := by
  unfold PinctrlDev.owned
  rw [hd]
  rfl

theorem owned_setDesc (drv : RtsPinctrl × Nat) :
    ({ dev with drv := drv }.setDesc pin d').owned q =
      if q = pin then d'.owned else dev.owned q := by
  unfold PinctrlDev.owned
  rw [PinctrlDev.setDesc_desc]
  split <;> rfl

theorem Agrees.setDesc (h : Agrees dev) (hd : dev.desc pin = some d)
    (hone : d'.muxOwner = none ∨ d'.gpioOwner = none)
    (hmask : ∀ q < rtsNumPins, rtspc.maskBit q =
      if q = pin then d'.owned else dev.drv.1.maskBit q)
    (hrefs : refs + d.owned.toNat = dev.drv.2 + d'.owned.toNat) :
    Agrees ({ dev with drv := (rtspc, refs) }.setDesc pin d') := by
  have hpin : pin < rtsNumPins := (h.registered pin).mp (by rw [hd]; rfl)
  constructor
  · intro p
    rw [PinctrlDev.setDesc_desc]
    by_cases heq : p = pin
    · rw [if_pos heq, heq]
      exact iff_of_true rfl hpin
    · rw [if_neg heq]
      exact h.registered p
  · intro p hp
    rw [owned_setDesc]
    show rtspc.maskBit p = _
    rw [hmask p hp, h.mask p hp]
  · intro p e he
    rw [PinctrlDev.setDesc_desc] at he
    by_cases heq : p = pin
    · rw [if_pos heq, Option.some_inj] at he
      rw [← he]
      exact hone
    · rw [if_neg heq] at he
      exact h.one p e he
  · show refs = _
    have hother : ∀ q, q ≠ pin →
        ({ dev with drv := (rtspc, refs) }.setDesc pin d').owned q = dev.owned q :=
      fun q hq => (owned_setDesc (rtspc, refs)).trans (if_neg hq)
    have hnew : ({ dev with drv := (rtspc, refs) }.setDesc pin d').owned pin = d'.owned :=
      (owned_setDesc (rtspc, refs)).trans (if_pos rfl)
    have hold := owned_eq hd
    have hdrv := h.refs
    cases hb : d.owned <;> cases hb' : d'.owned <;> rw [hb] at hold hrefs <;>
      rw [hb'] at hnew hrefs <;> simp only [Bool.toNat_true, Bool.toNat_false] at hrefs
    · rw [List.countP_congr fun q _ => ?_, ← hdrv]
      · exact hrefs
      · by_cases hq : q = pin
        · rw [hq, hnew, hold]
        · rw [hother q hq]
    · rw [countP_range_update hpin hnew hold hother, ← hdrv]
      exact hrefs
    · rw [countP_range_update hpin hold hnew fun q hq => (hother q hq).symm] at hdrv
      omega
    · rw [List.countP_congr fun q _ => ?_, ← hdrv]
      · omega
      · by_cases hq : q = pin
        · rw [hq, hnew, hold]
        · rw [hother q hq]

theorem pinAcquire_of_ne {drv : RtsPinctrl × Nat}
    (h : (rtsPmxOps.pinAcquire drv pin gpioRange).1 ≠ 0) :
    (rtsPmxOps.pinAcquire drv pin gpioRange).2 = drv := by
  rw [pinAcquire_rts] at h ⊢
  by_cases hfail : (drv.1.rtsPmxRequest pin).1 = 0
  · rw [if_neg (not_not_intro hfail)] at h
    exact absurd rfl h
  · rw [if_pos hfail, rtsPmxRequest_eq_of_ne hfail]

theorem Agrees.acquire (h : Agrees dev) (hd : dev.desc pin = some d)
    (hok : (rtsPmxOps.pinAcquire dev.drv pin gpioRange).1 = 0) :
    d.owned = false ∧
      (rtsPmxOps.pinAcquire dev.drv pin gpioRange).2.2 = dev.drv.2 + 1 ∧
      ∀ q < rtsNumPins, (rtsPmxOps.pinAcquire dev.drv pin gpioRange).2.1.maskBit q =
        if q = pin then true else dev.drv.1.maskBit q := by
  have hpin : pin < rtsNumPins := (h.registered pin).mp (by rw [hd]; rfl)
  obtain ⟨hbusy, hfree⟩ := rtsPmxRequest_spec dev.drv.1 hpin
  have hmask := h.mask pin hpin
  rw [owned_eq hd] at hmask
  rw [pinAcquire_rts] at hok ⊢
  cases hbit : dev.drv.1.maskBit pin with
  | true =>
    rw [hbusy hbit] at hok
    exact absurd hok (by decide : (-EBUSY : Int) ≠ 0)
  | false =>
    obtain ⟨hret, hset⟩ := hfree hbit
    rw [if_neg (not_not_intro hret)]
    exact ⟨hmask ▸ hbit, rfl, hset⟩

theorem Agrees.release (h : Agrees dev) (hd : dev.desc pin = some d) (howned : d.owned = true)
    (hnone : d'.muxOwner = none ∧ d'.gpioOwner = none) :
    Agrees ({ dev with drv := rtsPmxOps.pinRelease dev.drv pin gpioRange }.setDesc pin d') := by
  have hpin : pin < rtsNumPins := (h.registered pin).mp (by rw [hd]; rfl)
  have hmask := h.mask pin hpin
  rw [owned_eq hd, howned] at hmask
  have hfree : d'.owned = false := by
    unfold PinDesc.owned
    rw [hnone.1, hnone.2]
    rfl
  have hpos : 0 < dev.drv.2 := by
    rw [h.refs]
    refine List.countP_pos_iff.mpr ⟨pin, List.mem_range.mpr hpin, ?_⟩
    rw [owned_eq hd, howned]
  rw [pinRelease_rts]
  refine h.setDesc hd (.inl hnone.1) ?_ ?_
  · rw [hfree]
    exact rtsPmxFree_spec hpin hmask
  · rw [howned, hfree]
    simp only [Bool.toNat_true, Bool.toNat_false]
    omega

theorem Agrees.setDesc_sameOwners (h : Agrees dev) (hd : dev.desc pin = some d)
    (hmux : d'.muxOwner = d.muxOwner) (hgpio : d'.gpioOwner = d.gpioOwner) :
    Agrees (dev.setDesc pin d') := by
  have hpin : pin < rtsNumPins := (h.registered pin).mp (by rw [hd]; rfl)
  have howned : d'.owned = d.owned := by
    unfold PinDesc.owned
    rw [hmux, hgpio]
  refine h.setDesc hd (by rw [hmux, hgpio]; exact h.one pin d hd) (fun q hq => ?_) (by rw [howned])
  by_cases heq : q = pin
  · rw [if_pos heq, howned, ← owned_eq hd, heq]
    exact h.mask pin hpin
  · rw [if_neg heq]

/-- These pins are owned as GPIOs. -/
def Granted (dev : PinctrlDev (RtsPinctrl × Nat)) (gpios : List Nat) : Prop :=
  ∀ pin ∈ gpios, ∃ d, dev.desc pin = some d ∧ d.gpioOwner.isSome

theorem Granted.setDesc {gpios : List Nat} (h : Granted dev gpios) (drv : RtsPinctrl × Nat)
    (hd : dev.desc pin = some d) (hgpio : d'.gpioOwner = d.gpioOwner) :
    Granted ({ dev with drv := drv }.setDesc pin d') gpios := by
  intro p hp
  obtain ⟨e, he, hsome⟩ := h p hp
  rw [PinctrlDev.setDesc_desc]
  by_cases heq : p = pin
  · rw [heq, hd, Option.some_inj] at he
    rw [if_pos heq]
    exact ⟨d', rfl, by rw [hgpio, he]; exact hsome⟩
  · rw [if_neg heq]
    exact ⟨e, he, hsome⟩

/-- **The records follow the book.**  No request, free, mark or function takes them apart. -/
theorem rtsKeeper (gpios : List Nat) : Keeper rtsPmxOps (fun _ => True) fun dev claims =>
    Booked dev claims ∧ Agrees dev ∧ Granted dev gpios where
  room := fun _ _ => trivial
  perm := fun h hperm => ⟨h.1.perm hperm, h.2⟩
  booked := And.left
  request := by
    intro dev claims pin owner r h hr
    obtain ⟨hbook, hagree, hgrant⟩ := h
    have hnew := hbook.request hr
    cases hr with
    | refused =>
      exact ⟨fun _ => ⟨hbook, hagree, hgrant⟩,
        fun h0 => absurd h0 (by decide : (-EINVAL : Int) ≠ 0)⟩
    | failed hne =>
      refine ⟨fun _ => ?_, fun h0 => absurd h0 hne⟩
      rw [pinAcquire_of_ne hne]
      exact ⟨hbook, hagree, hgrant⟩
    | again d hd hclaimed howner hwrap =>
      refine ⟨fun h0 => absurd rfl h0, fun _ _ => ⟨hnew.2 rfl fun e he => ?_, ?_, ?_⟩⟩
      · rw [hd, Option.some_inj] at he
        rw [← he]
        exact hwrap
      · exact hagree.setDesc_sameOwners hd rfl rfl
      · exact hgrant.setDesc dev.drv hd rfl
    | first d hd hfree hacquire =>
      refine ⟨fun h0 => absurd rfl h0, fun _ _ => ⟨hnew.2 rfl fun e he => ?_, ?_, ?_⟩⟩
      · rw [hd, Option.some_inj] at he
        rw [← he, hfree]
        decide
      · obtain ⟨howned, hrefs, hmask⟩ := hagree.acquire hd hacquire
        have hgpio : d.gpioOwner = none := by
          cases hg : d.gpioOwner with
          | none => rfl
          | some g =>
            unfold PinDesc.owned at howned
            rw [hg, Option.isSome_some, Bool.or_true] at howned
            cases howned
        refine hagree.setDesc hd (.inr hgpio) hmask ?_
        rw [howned, hrefs]
        rfl
      · exact hgrant.setDesc _ hd rfl
    | wrapped d hd hwrap howner hacquire =>
      obtain ⟨howned, -⟩ := hagree.acquire hd hacquire
      unfold PinDesc.owned at howned
      rw [howner, Option.isSome_some, Bool.true_or] at howned
      cases howned
  free := by
    intro dev dev' claims pin owner h hf
    obtain ⟨hbook, hagree, hgrant⟩ := h
    refine ⟨hbook.pinFree hf, ?_⟩
    cases hf with
    | idle _ => exact ⟨hagree, hgrant⟩
    | shared d hd hclaimed hmore =>
      exact ⟨hagree.setDesc_sameOwners hd rfl rfl, hgrant.setDesc dev.drv hd rfl⟩
    | last d hd hlast =>
      have hmux : d.muxOwner.isSome := (hbook.owned_iff hd).mpr (by rw [hlast]; decide)
      have hgpio : d.gpioOwner = none := by
        refine (hagree.one pin d hd).resolve_left fun hnone => ?_
        rw [hnone] at hmux
        cases hmux
      refine ⟨hagree.release hd ?_ ⟨rfl, hgpio⟩, hgrant.setDesc _ hd rfl⟩
      unfold PinDesc.owned
      rw [hmux, Bool.true_or]
  mark := fun h hd hmark => ⟨h.1.mark hd hmark, h.2.1.setDesc_sameOwners hd rfl rfl,
    h.2.2.setDesc _ hd rfl⟩
  setMux := by
    intro dev claims h func group
    obtain ⟨hbook, hagree, hgrant⟩ := h
    refine ⟨hbook.of_desc rfl, ⟨hagree.registered, fun pin hpin => ?_, hagree.one, hagree.refs⟩,
      hgrant⟩
    show (dev.drv.1.rtsPmxEnable func group).2.maskBit pin = _
    unfold RtsPinctrl.maskBit
    rw [rtsPmxEnable_pinsmask]
    exact hagree.mask pin hpin

/-! ## Runs -/

/-- The book of the settings that are enabled, and of those that were leaked, and the three
records. -/
structure Owns (s : PinmuxState (RtsPinctrl × Nat)) : Prop where
  booked : ∃ leaked, Booked s.dev (claimsOfSettings rtsPmxOps s.enabled ++ leaked)
  agrees : Agrees s.dev
  granted : Granted s.dev s.gpios
  nodup : s.gpios.Nodup

variable {s s' : PinmuxState (RtsPinctrl × Nat)} {op : PinmuxOp}

theorem Owns.enableSetting (h : Owns s) {setting : PinctrlSetting}
    (hstep : pinmuxStep rtsPmxOps s (.enableSetting setting) = some s') : Owns s' := by
  obtain ⟨⟨leaked, hbook⟩, hagree, hgrant, hnodup⟩ := h
  obtain ⟨hfail, hok⟩ := (rtsKeeper s.gpios).enable setting ⟨hbook, hagree, hgrant⟩ trivial
  have hnext : some { s with
      dev := (rtsPmxOps.pinmuxEnableSetting s.dev setting).2
      enabled := if (rtsPmxOps.pinmuxEnableSetting s.dev setting).1 = 0 then setting :: s.enabled
        else s.enabled } = some s' := hstep
  obtain rfl := Option.some_inj.mp hnext
  by_cases hret : (rtsPmxOps.pinmuxEnableSetting s.dev setting).1 = 0
  · obtain ⟨hbook', hagree', hgrant'⟩ := hok hret
    refine ⟨⟨leaked, ?_⟩, hagree', hgrant', hnodup⟩
    rw [if_pos hret]
    rw [← List.append_assoc] at hbook'
    exact hbook'
  · obtain ⟨hbook', hagree', hgrant'⟩ := hfail hret
    refine ⟨⟨leaked, ?_⟩, hagree', hgrant', hnodup⟩
    rw [if_neg hret]
    exact hbook'

theorem Owns.disableSetting (h : Owns s) {setting : PinctrlSetting}
    (hstep : pinmuxStep rtsPmxOps s (.disableSetting setting) = some s') : Owns s' := by
  obtain ⟨⟨leaked, hbook⟩, hagree, hgrant, hnodup⟩ := h
  have hnext : (if setting ∈ s.enabled then
      some { s with
        dev := rtsPmxOps.pinmuxDisableSetting s.dev setting
        enabled := s.enabled.erase setting }
    else none) = some s' := hstep
  split at hnext
  · rename_i hmem
    obtain rfl := Option.some_inj.mp hnext
    have hperm := (claimsOfSettings_erase rtsPmxOps hmem).append_right leaked
    rw [List.append_assoc] at hperm
    obtain ⟨more, -, hbook', hagree', hgrant'⟩ :=
      (rtsKeeper s.gpios).disablePins setting ⟨hbook.perm hperm, hagree, hgrant⟩
    refine ⟨⟨claimsOf setting.devName more ++ leaked, hbook'.perm ?_⟩, hagree', hgrant', hnodup⟩
    rw [← List.append_assoc, ← List.append_assoc]
    exact List.perm_append_comm.append_right leaked
  · cases hnext

/-- A GPIO request keeps the pins owned. -/
theorem Owns.requestGpio (h : Owns s) {owner : Option String}
    (hstep : pinmuxStep rtsPmxOps s (.requestGpio pin owner) = some s') : Owns s' := by
  obtain ⟨⟨leaked, hbook⟩, hagree, hgrant, hnodup⟩ := h
  have hnext : some { s with
      dev := (rtsPmxOps.pinmuxRequestGpio s.dev pin owner).2
      gpios := if (rtsPmxOps.pinmuxRequestGpio s.dev pin owner).1 = 0 then pin :: s.gpios
        else s.gpios } = some s' := hstep
  obtain rfl := Option.some_inj.mp hnext
  cases owner with
  | none => exact ⟨⟨leaked, hbook⟩, hagree, hgrant, hnodup⟩
  | some owner =>
    have hreq := gpioRequest rtsPmxOps s.dev pin owner
    have hsame : rtsPmxOps.pinmuxRequestGpio s.dev pin (some owner) =
      rtsPmxOps.pinRequest s.dev pin owner true := rfl
    rw [hsame]
    generalize rtsPmxOps.pinRequest s.dev pin owner true = r at hreq
    cases hreq with
    | refused => exact ⟨⟨leaked, hbook⟩, hagree, hgrant, hnodup⟩
    | failed hne =>
      rw [if_neg hne, pinAcquire_of_ne hne]
      exact ⟨⟨leaked, hbook⟩, hagree, hgrant, hnodup⟩
    | granted d hd hfree hacquire =>
      obtain ⟨howned, hrefs, hmask⟩ := hagree.acquire hd hacquire
      have hmux : d.muxOwner = none := by
        cases hm : d.muxOwner with
        | none => rfl
        | some m =>
          unfold PinDesc.owned at howned
          rw [hm, Option.isSome_some, Bool.true_or] at howned
          cases howned
      have hnew : pin ∉ s.gpios := by
        intro hmem
        obtain ⟨e, he, hsome⟩ := hgrant pin hmem
        rw [hd, Option.some_inj] at he
        rw [← he, hfree] at hsome
        cases hsome
      rw [if_pos rfl]
      refine ⟨⟨leaked, hbook.setGpio hd _ _⟩, hagree.setDesc hd (.inl hmux) ?_ ?_, ?_,
        List.nodup_cons.mpr ⟨hnew, hnodup⟩⟩
      · have hset : PinDesc.owned { d with gpioOwner := some owner } = true := Bool.or_true _
        rw [hset]
        exact hmask
      · rw [howned, hrefs]
        unfold PinDesc.owned
        rw [Option.isSome_some, Bool.or_true]
        rfl
      · intro p hp
        show ∃ e, (PinctrlDev.setDesc _ pin _).desc p = some e ∧ _
        rw [PinctrlDev.setDesc_desc]
        by_cases heq : p = pin
        · rw [if_pos heq]
          exact ⟨_, rfl, rfl⟩
        · rw [if_neg heq]
          exact hgrant p ((List.mem_cons.mp hp).resolve_left heq)

theorem Owns.freeGpio (h : Owns s)
    (hstep : pinmuxStep rtsPmxOps s (.freeGpio pin) = some s') : Owns s' := by
  obtain ⟨⟨leaked, hbook⟩, hagree, hgrant, hnodup⟩ := h
  have hnext : (if pin ∈ s.gpios then
      some { s with dev := rtsPmxOps.pinmuxFreeGpio s.dev pin, gpios := s.gpios.erase pin }
    else none) = some s' := hstep
  split at hnext
  · rename_i hmem
    obtain rfl := Option.some_inj.mp hnext
    obtain ⟨d, hd, hsome⟩ := hgrant pin hmem
    have hmux : d.muxOwner = none := by
      refine (hagree.one pin d hd).resolve_right fun hnone => ?_
      rw [hnone] at hsome
      cases hsome
    have hdev : rtsPmxOps.pinmuxFreeGpio s.dev pin =
        { s.dev with drv := rtsPmxOps.pinRelease s.dev.drv pin true }.setDesc pin
          { d with gpioOwner := none } := by
      unfold PinmuxOps.pinmuxFreeGpio PinmuxOps.pinFree
      rw [hd]
      rfl
    rw [hdev]
    refine ⟨⟨leaked, hbook.setGpio hd _ none⟩, hagree.release hd ?_ ⟨hmux, rfl⟩, ?_,
      hnodup.erase pin⟩
    · unfold PinDesc.owned
      rw [hsome, Bool.or_true]
    · intro p hp
      have hne : p ≠ pin := fun heq => hnodup.not_mem_erase (heq ▸ hp)
      show ∃ e, (PinctrlDev.setDesc _ pin _).desc p = some e ∧ _
      rw [PinctrlDev.setDesc_desc, if_neg hne]
      exact hgrant p (List.mem_of_mem_erase hp)
  · cases hnext

theorem Owns.step (h : Owns s) (hstep : pinmuxStep rtsPmxOps s op = some s') : Owns s' := by
  cases op with
  | enableSetting setting => exact h.enableSetting hstep
  | disableSetting setting => exact h.disableSetting hstep
  | requestGpio pin owner => exact h.requestGpio hstep
  | freeGpio pin => exact h.freeGpio hstep

theorem owns_probed (rtspc : RtsPinctrl) : Owns ⟨probed rtspc, [], []⟩ := by
  -- Every descriptor is the one of a pin that nobody has.
  have hdesc (pin : Nat) (d : PinDesc) (hd : (probed rtspc).desc pin = some d) :
      d = ⟨0, none, none, none⟩ := by
    have hite : (if pin < rtsNumPins then some ⟨0, none, none, none⟩ else none) = some d := hd
    split at hite
    · exact (Option.some_inj.mp hite).symm
    · cases hite
  have howned (pin : Nat) : (probed rtspc).owned pin = false := by
    unfold PinctrlDev.owned
    cases hd : (probed rtspc).desc pin with
    | none => rfl
    | some d =>
      rw [hdesc pin d hd]
      rfl
  refine ⟨⟨[], ⟨fun p d hd => ?_, nofun, fun p d hd _ => ?_⟩⟩,
    ⟨fun pin => ?_, fun pin _ => ?_, fun pin d hd => .inl ?_, ?_⟩,
    nofun, List.nodup_nil⟩
  · rw [hdesc p d hd]
    rfl
  · rw [hdesc p d hd]
    exact ⟨rfl, rfl⟩
  · show (if pin < rtsNumPins then some (⟨0, none, none, none⟩ : PinDesc) else none).isSome ↔ _
    split <;> simp [*]
  · rw [howned]
    show RtsPinctrl.maskBit { rtspc with pinsmask := (0, 0) } pin = false
    unfold RtsPinctrl.maskBit
    split <;> exact BitVec.getLsbD_zero
  · rw [hdesc pin d hd]
  · exact (List.countP_eq_zero.mpr fun pin _ => by rw [howned]; decide).symm

theorem Owns.pinOwned (h : Owns s) : PinOwned s := by
  obtain ⟨⟨leaked, hbook⟩, hagree, -, -⟩ := h
  have hmask (pin : Nat) (d : PinDesc) (hd : s.dev.desc pin = some d) :
      s.dev.drv.1.maskBit pin = d.owned := by
    rw [hagree.mask pin ((hagree.registered pin).mp (by rw [hd]; rfl)), owned_eq hd]
  constructor
  · intro pin d hd
    rw [hbook.owned_iff hd]
    exact BitVec.pos_iff_ne_zero d.muxUsecount
  · intro pin d hd
    rw [hmask pin d hd]
    exact Bool.or_eq_true_iff
  · rintro pin d hd ⟨hmux, hgpio⟩
    rcases hagree.one pin d hd with hnone | hnone
    · rw [hnone] at hmux
      cases hmux
    · rw [hnone] at hgpio
      cases hgpio
  · intro pin d hd setting hsetting hpin
    have hclaim : (pin, setting.devName) ∈ claimsOfSettings rtsPmxOps s.enabled ++ leaked :=
      List.mem_append_left leaked (List.mem_flatMap.mpr
        ⟨setting, hsetting, List.mem_map.mpr ⟨pin, hpin, rfl⟩⟩)
    obtain ⟨d', hd', howner⟩ := hbook.owner _ hclaim
    rw [hd, Option.some_inj] at hd'
    rw [hd', howner]
  · rw [hagree.refs, List.countP_eq_length_filter]

/-- **Pin ownership.**  After its probe, whatever settings are enabled and disabled and
whatever GPIOs are requested and freed, the core and the driver agree in every state about who
owns each pin. -/
theorem pinOwned_of_exec (rtspc : RtsPinctrl) {ops : List PinmuxOp}
    (hrun : Runs.exec (pinmuxStep rtsPmxOps) ⟨probed rtspc, [], []⟩ ops = some s) :
    PinOwned s :=
  (Runs.exec_invariant (fun _ _ _ h _ hstep => h.step hstep) (owns_probed rtspc)
    (Runs.Along.of_mem fun _ _ => trivial : Runs.Along _ (fun _ _ => True) _ _) hrun).pinOwned

/-- Two settings of one device that share pins, one of them with a pin listed twice, a GPIO on a pin
that is taken and one on a pin that is free. -/
def sharedPads : List PinmuxOp :=
  [.enableSetting ⟨0, "mmc", pwmFuncSelect, pwmsdGroupSelect⟩,
    .enableSetting ⟨1, "mmc", sdio1FuncSelect, sdio1GroupSelect⟩, .requestGpio 41 (some "gpio:41"),
    .requestGpio 5 (some "gpio:5"), .enableSetting ⟨2, "audio", gpioFuncSelect, gpioGroupSelect⟩,
    .disableSetting ⟨1, "mmc", sdio1FuncSelect, sdio1GroupSelect⟩, .freeGpio 5]

theorem pinOwned_sharedPads : ∃ s,
    Runs.exec (pinmuxStep rtsPmxOps) ⟨probed cleared, [], []⟩ sharedPads = some s ∧ PinOwned s := by
  obtain ⟨s, hs⟩ := Option.isSome_iff_exists.mp (by decide +kernel :
    (Runs.exec (pinmuxStep rtsPmxOps) ⟨probed cleared, [], []⟩ sharedPads).isSome = true)
  exact ⟨s, hs, pinOwned_of_exec cleared hs⟩

end RealtekIpcam.Pinctrl
