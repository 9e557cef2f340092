import RealtekIpcam.Gpiolib.Descriptors

/-!
# The interrupt behind the file `edge`

While an edge is chosen, the interrupt of a class device is requested once, the line is locked once
and the dirent is referenced once, and the trigger is the edge on the wire under the polarity of the
line: `Node.Good`.

A write that fails should leave the edge and the polarity as they were.  Both stores give the old
interrupt back before they know that they can have the new one, so what they do depends on
`irqAvailable`: `edgeStore_outcome` and `activeLowStore_outcome`.
-/

namespace RealtekIpcam.Gpiolib.Sysfs

/-! ## The trigger -/

/-- The edge on the wire for an edge of the logical value. -/
def mirror (flags : BitVec 8) (activeLow : Bool) : BitVec 8 :=
  if activeLow then
    (if flags.getLsbD 1 then GPIO_IRQF_TRIGGER_FALLING else 0#8) |||
      (if flags.getLsbD 0 then GPIO_IRQF_TRIGGER_RISING else 0#8)
  else flags

/-- The flags of a shared interrupt on the edges of the wire. -/
def triggerOf (wire : BitVec 8) : BitVec 64 :=
  IRQF_SHARED ||| (if wire.getLsbD 0 then IRQF_TRIGGER_FALLING else 0#64) |||
    (if wire.getLsbD 1 then IRQF_TRIGGER_RISING else 0#64)

theorem requestFlags_eq (flags : BitVec 8) (activeLow : Bool) :
    requestFlags flags activeLow = triggerOf (mirror flags activeLow) := by
  revert flags activeLow
  decide +kernel

theorem mirror_both (activeLow : Bool) :
    mirror GPIO_IRQF_TRIGGER_BOTH activeLow = GPIO_IRQF_TRIGGER_BOTH := by
  cases activeLow <;> rfl

theorem orSize_zero_nonneg (buf : String) : 0 ≤ orSize 0 buf := Int.natCast_nonneg _

theorem orSize_of_neg {status : Int} {buf : String} (h : status < 0) : orSize status buf = status :=
  if_pos (by omega)

/-! ## The interrupt of a class device -/

namespace Node

/-- No edge is chosen and nothing is held. -/
structure Idle (n : Node) : Prop where
  irqFlags : n.dev.irqFlags = 0#8
  held : n.held = Held.none

/-- The interrupt is held, whatever its trigger. -/
structure Holds (n : Node) : Prop where
  held : ∃ flags, n.held = ⟨[⟨n.dev.irq, flags⟩], 1, 1⟩
  valueKn : n.dev.valueKn = true

/-- **The invariant of a class device.**  An edge from the table is chosen, or none, and what is
held is what the edge needs. -/
structure Good (n : Node) : Prop where
  idle : n.dev.irqFlags = 0#8 → n.held = Held.none
  watched : n.dev.irqFlags ≠ 0#8 → n.desc.usedAsIrq = true ∧
    n.held = ⟨[⟨n.dev.irq, triggerOf (mirror n.dev.irqFlags n.desc.activeLow)⟩], 1, 1⟩
  valueKn : n.dev.irqFlags ≠ 0#8 → n.dev.valueKn = true
  flags : n.dev.irqFlags ∈ triggerTypes.map Prod.snd

variable {chip : Option Chip} {c : Calls} {flags : BitVec 8} {buf : String} {n m : Node}

theorem Idle.good (h : n.Idle) : n.Good := by
  refine ⟨fun _ => h.held, fun hne => absurd h.irqFlags hne, fun hne => absurd h.irqFlags hne, ?_⟩
  rw [h.irqFlags]
  decide

theorem Good.holds (h : n.Good) (hne : n.dev.irqFlags ≠ 0#8) : n.Holds :=
  ⟨⟨_, (h.watched hne).2⟩, h.valueKn hne⟩

/-! ### Giving it back -/

theorem gpioSysfsFreeIrq_eq_some (h : n.gpioSysfsFreeIrq chip = some m) :
    m.desc = n.desc.gpiochipUnlockAsIrq ∧ m.dev = { n.dev with irqFlags := 0#8 } ∧
      m.held = { actions := n.held.actions.eraseP fun action => action.irq = n.dev.irq
                 locks := n.held.locks - 1
                 valueRefs := n.held.valueRefs - if n.dev.valueKn then 1 else 0 } := by
  obtain ⟨_, -, rfl⟩ := Option.map_eq_some_iff.mp h
  exact ⟨rfl, rfl, rfl⟩

theorem exists_gpioSysfsFreeIrq (h : chip.isSome = true) (n : Node) :
    ∃ m, n.gpioSysfsFreeIrq chip = some m := by
  obtain ⟨chip, rfl⟩ := Option.isSome_iff_exists.mp h
  exact ⟨_, rfl⟩

theorem gpioSysfsFreeIrq_isSome (h : n.gpioSysfsFreeIrq chip = some m) : chip.isSome = true := by
  obtain ⟨_, hchip, -⟩ := Option.map_eq_some_iff.mp h
  exact Option.isSome_iff_exists.mpr ⟨_, hchip⟩

theorem Holds.idle_of_free (h : n.Holds) (hfree : n.gpioSysfsFreeIrq chip = some m) : m.Idle := by
  obtain ⟨-, hdev, hheld⟩ := gpioSysfsFreeIrq_eq_some hfree
  obtain ⟨flags, hn⟩ := h.held
  refine ⟨by rw [hdev], ?_⟩
  rw [hheld, hn, h.valueKn]
  simp [Held.none]

theorem sameUse_of_free (h : n.gpioSysfsFreeIrq chip = some m) : Desc.SameUse n.desc m.desc := by
  rw [(gpioSysfsFreeIrq_eq_some h).1]
  exact n.desc.sameUse_gpiochipUnlockAsIrq

theorem irqAvailable_of_free (h : n.gpioSysfsFreeIrq chip = some m) :
    m.desc.irqAvailable chip c = n.desc.irqAvailable chip c := by
  rw [(gpioSysfsFreeIrq_eq_some h).1, Desc.irqAvailable_unlock]

theorem Good.freeOldIrq (h : n.Good) (hfree : n.freeOldIrq chip = some m) :
    m.Idle ∧ Desc.SameUse n.desc m.desc := by
  by_cases hne : n.dev.irqFlags ≠ 0#8
  · rw [Node.freeOldIrq, if_pos hne] at hfree
    exact ⟨(h.holds hne).idle_of_free hfree, sameUse_of_free hfree⟩
  · rw [Node.freeOldIrq, if_neg hne, Option.some_inj] at hfree
    have hzero : n.dev.irqFlags = 0#8 := not_not.mp hne
    rw [← hfree]
    exact ⟨⟨hzero, h.idle hzero⟩, .refl n.desc⟩

theorem irqAvailable_freeOldIrq (hfree : n.freeOldIrq chip = some m) :
    m.desc.irqAvailable chip c = n.desc.irqAvailable chip c := by
  by_cases hne : n.dev.irqFlags ≠ 0#8
  · rw [Node.freeOldIrq, if_pos hne] at hfree
    exact irqAvailable_of_free hfree
  · rw [Node.freeOldIrq, if_neg hne, Option.some_inj] at hfree
    rw [← hfree]

/-! ### Requesting it -/

theorem sameUse_requestIrqFor (chip : Chip) (c : Calls) (flags : BitVec 8) (n : Node) :
    Desc.SameUse n.desc (n.requestIrqFor chip c flags).2.desc := by
  have hlock := n.desc.sameUse_gpiochipLockAsIrq chip c
  rw [requestIrqFor]
  by_cases hdirent : (!c.getDirent) = true
  · rw [if_pos hdirent]
    exact .refl n.desc
  rw [if_neg hdirent]
  by_cases hneg : (n.desc.gpiochipLockAsIrq chip c).1 < 0
  · rw [if_pos hneg]
    exact hlock
  rw [if_neg hneg]
  by_cases hreq : c.requestAnyContextIrq < 0
  · rw [if_pos hreq]
    exact hlock.trans (Desc.sameUse_gpiochipUnlockAsIrq _)
  rw [if_neg hreq]
  exact hlock

theorem sameUse_gpioSysfsRequestIrq (chip : Option Chip) (c : Calls) (flags : BitVec 8) (n : Node) :
    Desc.SameUse n.desc (n.gpioSysfsRequestIrq chip c flags).2.desc := by
  cases chip with
  | none => exact .refl n.desc
  | some chip =>
    rw [gpioSysfsRequestIrq]
    by_cases hirq : gpiodToIrq (some chip) c < 0
    · rw [if_pos hirq]
      exact .refl n.desc
    · rw [if_neg hirq]
      exact sameUse_requestIrqFor chip c flags
        { n with dev := { n.dev with irq := gpiodToIrq (some chip) c } }

theorem neg_eio : - EIO < 0 := by decide

theorem neg_enodev : -ENODEV < 0 := by decide

variable (flags) in
theorem Idle.request_fails (h : n.Idle) (havail : n.desc.irqAvailable chip c = false) :
    (n.gpioSysfsRequestIrq chip c flags).1 < 0 ∧ (n.gpioSysfsRequestIrq chip c flags).2.Idle := by
  have hidle : ∀ n' : Node, n'.dev.irqFlags = n.dev.irqFlags → n'.held = n.held → n'.Idle :=
    fun n' hflags hheld => ⟨hflags.trans h.irqFlags, hheld.trans h.held⟩
  cases chip with
  | none => exact ⟨neg_eio, hidle _ rfl rfl⟩
  | some chip =>
    rw [gpioSysfsRequestIrq]
    by_cases hirq : gpiodToIrq (some chip) c < 0
    · rw [if_pos hirq]
      exact ⟨neg_eio, hidle _ rfl rfl⟩
    rw [if_neg hirq, requestIrqFor]
    by_cases hdirent : (!c.getDirent) = true
    · rw [if_pos hdirent]
      exact ⟨neg_enodev, hidle _ rfl rfl⟩
    rw [if_neg hdirent]
    by_cases hneg : (n.desc.gpiochipLockAsIrq chip c).1 < 0
    · rw [if_pos hneg]
      exact ⟨hneg, hidle _ rfl rfl⟩
    rw [if_neg hneg]
    by_cases hreq : c.requestAnyContextIrq < 0
    · rw [if_pos hreq]
      exact ⟨hreq, hidle _ rfl rfl⟩
    have hdir := (n.desc.gpiochipLockAsIrq_nonneg_iff chip c).mp (not_lt.mp hneg)
    rw [Bool.not_eq_true, Bool.not_eq_false'] at hdirent
    simp [Desc.irqAvailable, hdir, hdirent, not_lt.mp hirq, not_lt.mp hreq] at havail

theorem Idle.request_good (h : n.Idle) (havail : n.desc.irqAvailable chip c = true)
    (hflags : flags ∈ triggerTypes.map Prod.snd) (hne : flags ≠ 0#8) :
    (n.gpioSysfsRequestIrq chip c flags).1 = 0 ∧
      (n.gpioSysfsRequestIrq chip c flags).2.Good := by
  cases chip with
  | none => cases havail
  | some chip =>
    simp only [Desc.irqAvailable, Bool.and_eq_true, decide_eq_true_eq] at havail
    obtain ⟨⟨⟨hirq, hdirent⟩, hdir⟩, hreq⟩ := havail
    have hlock := (n.desc.gpiochipLockAsIrq_nonneg_iff chip c).mpr hdir
    have hlow := (n.desc.sameUse_gpiochipLockAsIrq chip c).activeLow
    have hrun : n.gpioSysfsRequestIrq (some chip) c flags =
        (0, { desc := (n.desc.gpiochipLockAsIrq chip c).2
              dev := { n.dev with
                irq := gpiodToIrq (some chip) c, valueKn := true, irqFlags := flags }
              held := { actions := n.held.actions ++
                          [⟨gpiodToIrq (some chip) c, requestFlags flags n.desc.activeLow⟩]
                        locks := n.held.locks + 1
                        valueRefs := n.held.valueRefs + 1 } }) := by
      rw [gpioSysfsRequestIrq, if_neg (not_lt.mpr hirq), requestIrqFor, hdirent,
        if_neg (by decide), if_neg (not_lt.mpr hlock), if_neg (not_lt.mpr hreq)]
    rw [hrun]
    refine ⟨rfl, fun hzero => absurd hzero hne, fun _ => ⟨?_, ?_⟩, fun _ => rfl, hflags⟩
    · exact n.desc.gpiochipLockAsIrq_usedAsIrq chip c hlock
    · rw [h.held, requestFlags_eq, hlow]
      rfl

/-! ### The files -/

/-- The edge that is chosen, the polarity, and what serves it. -/
def config (n : Node) : BitVec 8 × Bool × Held := (n.dev.irqFlags, n.desc.activeLow, n.held)

/-- A write to `edge` that replaces an edge by another one for which there is no interrupt. -/
def EdgeLost (chip : Option Chip) (c : Calls) (buf : String) (n : Node) : Prop :=
  ∃ flags, triggerFlags buf = some flags ∧ n.dev.irqFlags ≠ 0#8 ∧ flags ≠ 0#8 ∧
    flags ≠ n.dev.irqFlags ∧ chip.isSome = true ∧ n.desc.irqAvailable chip c = false

/-- A write to `active_low` that turns the polarity of a line on which one edge is chosen, when the
interrupt cannot be requested again. -/
def PolarityLost (kstrtol : String → Kstrtol) (chip : Option Chip) (c : Calls) (buf : String)
    (n : Node) : Prop :=
  ∃ value, kstrtol buf = .ok value ∧ n.desc.activeLow ≠ decide (value.bmod (2 ^ 32) ≠ 0) ∧
    (n.dev.irqFlags = GPIO_IRQF_TRIGGER_FALLING ∨ n.dev.irqFlags = GPIO_IRQF_TRIGGER_RISING) ∧
    chip.isSome = true ∧ n.desc.irqAvailable chip c = false

/-- **What a write to a file of the device comes to**: the invariant and the user of the line are
kept, and a failure changes nothing unless `lost`. -/
structure Outcome (lost : Prop) (n : Node) (ret : Int) (m : Node) : Prop where
  good : m.Good
  holder : Desc.SameHolder n.desc m.desc
  clean_iff : (ret < 0 → m.config = n.config) ↔ ¬ lost

theorem Outcome.of_nonneg {lost : Prop} {ret : Int} (hgood : m.Good)
    (hholder : Desc.SameHolder n.desc m.desc) (hret : 0 ≤ ret) (hlost : ¬ lost) :
    Outcome lost n ret m :=
  ⟨hgood, hholder, fun _ => hlost, fun _ hneg => absurd hneg (not_lt.mpr hret)⟩

theorem Outcome.of_config {lost : Prop} {ret : Int} (hgood : m.Good)
    (hholder : Desc.SameHolder n.desc m.desc) (hconfig : m.config = n.config) (hlost : ¬ lost) :
    Outcome lost n ret m :=
  ⟨hgood, hholder, fun _ => hlost, fun _ _ => hconfig⟩

theorem Outcome.of_lost {lost : Prop} {ret : Int} (hgood : m.Good)
    (hholder : Desc.SameHolder n.desc m.desc) (hret : ret < 0) (hconfig : m.config ≠ n.config)
    (hlost : lost) : Outcome lost n ret m :=
  ⟨hgood, hholder, fun h => absurd (h hret) hconfig, fun h => absurd hlost h⟩

theorem triggerFlags_mem (h : triggerFlags buf = some flags) :
    flags ∈ triggerTypes.map Prod.snd := by
  obtain ⟨type, hfind, rfl⟩ := Option.map_eq_some_iff.mp h
  exact List.mem_map_of_mem (List.mem_of_find?_eq_some hfind)

theorem edgeStore_of_ne (hflags : triggerFlags buf = some flags) (hne : flags ≠ n.dev.irqFlags) :
    n.edgeStore chip c buf = (n.freeOldIrq chip).map fun n =>
      (orSize (n.changeEdge chip c flags).1 buf, (n.changeEdge chip c flags).2) := by
  rw [edgeStore, hflags]
  exact if_neg hne

/-- What another edge can do. -/
theorem changeEdge_outcome (h : n.Good) (hflags : triggerFlags buf = some flags)
    (hne : flags ≠ n.dev.irqFlags) (hfree : n.freeOldIrq chip = some m) :
    Outcome (n.EdgeLost chip c buf) n (orSize (m.changeEdge chip c flags).1 buf)
      (m.changeEdge chip c flags).2 := by
  obtain ⟨hidle, huse⟩ := h.freeOldIrq hfree
  have havail : m.desc.irqAvailable chip c = n.desc.irqAvailable chip c :=
    irqAvailable_freeOldIrq hfree
  by_cases hzero : flags ≠ 0#8
  · rw [changeEdge, if_pos hzero]
    have hreq := huse.trans (m.sameUse_gpioSysfsRequestIrq chip c flags)
    cases hcan : n.desc.irqAvailable chip c with
    | true =>
      obtain ⟨hret, hgood⟩ := hidle.request_good (havail.trans hcan) (triggerFlags_mem hflags) hzero
      refine .of_nonneg hgood hreq.holder ?_ ?_
      · rw [hret]
        exact orSize_zero_nonneg buf
      · rintro ⟨_, -, -, -, -, -, hcannot⟩
        rw [hcan] at hcannot
        cases hcannot
    | false =>
      obtain ⟨hret, hidle'⟩ := hidle.request_fails flags (havail.trans hcan)
      rw [orSize_of_neg hret]
      by_cases hold : n.dev.irqFlags = 0#8
      · refine .of_config hidle'.good hreq.holder ?_ fun ⟨_, _, hnew, _⟩ => hnew hold
        rw [config, config, hidle'.irqFlags, hidle'.held, hreq.activeLow, hold, h.idle hold]
      · refine .of_lost hidle'.good hreq.holder hret ?_
          ⟨flags, hflags, hold, hzero, hne, ?_, hcan⟩
        · intro hconfig
          have heq := congrArg Prod.fst hconfig
          exact hold (heq.symm.trans hidle'.irqFlags)
        · rw [freeOldIrq, if_pos hold] at hfree
          exact gpioSysfsFreeIrq_isSome hfree
  · rw [changeEdge, if_neg hzero]
    refine .of_nonneg hidle.good huse.holder (orSize_zero_nonneg buf) ?_
    rintro ⟨flags', hflags', -, hne', -⟩
    rw [hflags, Option.some_inj] at hflags'
    exact hzero (hflags' ▸ hne')

theorem edgeStore_outcome {ret : Int} (h : n.Good) (hrun : n.edgeStore chip c buf = some (ret, m)) :
    Outcome (n.EdgeLost chip c buf) n ret m := by
  cases hflags : triggerFlags buf with
  | none =>
    rw [edgeStore, hflags] at hrun
    obtain ⟨rfl, rfl⟩ := Prod.mk.inj (Option.some.inj hrun)
    refine .of_config h (.refl n.desc) rfl ?_
    rintro ⟨_, hsome, -⟩
    rw [hflags] at hsome
    cases hsome
  | some flags =>
    by_cases heq : flags = n.dev.irqFlags
    · rw [edgeStore, hflags] at hrun
      obtain ⟨rfl, rfl⟩ := Prod.mk.inj (Option.some.inj ((if_pos heq).symm.trans hrun))
      refine .of_nonneg h (.refl n.desc) (Int.natCast_nonneg _) ?_
      rintro ⟨flags', hflags', -, -, hne, -⟩
      rw [hflags, Option.some_inj] at hflags'
      exact hne (hflags' ▸ heq)
    · rw [edgeStore_of_ne hflags heq] at hrun
      obtain ⟨m', hfree, hret⟩ := Option.map_eq_some_iff.mp hrun
      obtain ⟨rfl, rfl⟩ := Prod.mk.inj hret
      exact changeEdge_outcome h hflags heq hfree

theorem EdgeLost.exists_run (h : n.EdgeLost chip c buf) :
    ∃ ret m, n.edgeStore chip c buf = some (ret, m) := by
  obtain ⟨flags, hflags, hold, -, hne, hchip, -⟩ := h
  obtain ⟨m, hfree⟩ := exists_gpioSysfsFreeIrq hchip n
  have hfree' : n.freeOldIrq chip = some m := by rw [freeOldIrq, if_pos hold, hfree]
  rw [edgeStore_of_ne hflags hne, hfree']
  exact ⟨_, _, rfl⟩

/-- Exactly one edge is chosen. -/
def OneEdge (n : Node) : Prop :=
  n.dev.irqFlags = GPIO_IRQF_TRIGGER_FALLING ∨ n.dev.irqFlags = GPIO_IRQF_TRIGGER_RISING

theorem OneEdge.mem (h : n.OneEdge) :
    n.dev.irqFlags ∈ triggerTypes.map Prod.snd ∧ n.dev.irqFlags ≠ 0#8 := by
  rcases h with h | h
  · rw [h]
    decide
  · rw [h]
    decide

theorem Holds.setPolarity (h : n.Holds) (value : Bool) : (n.setPolarity value).Holds :=
  ⟨h.held, h.valueKn⟩

theorem Good.setPolarity (h : n.Good) (hone : ¬ n.OneEdge) (value : Bool) :
    (n.setPolarity value).Good := by
  refine ⟨h.idle, fun hne => ⟨(h.watched hne).1, ?_⟩, h.valueKn, h.flags⟩
  have hboth : n.dev.irqFlags = GPIO_IRQF_TRIGGER_BOTH := by
    have hmem := h.flags
    simp only [triggerTypes, List.map_cons, List.map_nil, List.mem_cons, List.not_mem_nil,
      or_false] at hmem
    rcases hmem with hzero | hfalling | hrising | hboth
    · exact absurd hzero hne
    · exact absurd (Or.inl hfalling) hone
    · exact absurd (Or.inr hrising) hone
    · exact hboth
  have hheld := (h.watched hne).2
  rw [hboth, mirror_both] at hheld
  show n.held = ⟨[⟨n.dev.irq, triggerOf (mirror n.dev.irqFlags value)⟩], 1, 1⟩
  rw [hheld, hboth, mirror_both]

theorem gpioSysfsSetActiveLow_of_eq {value : Int}
    (h : n.desc.activeLow = decide (value ≠ 0)) :
    n.gpioSysfsSetActiveLow chip c value = some (0, n) := if_pos h

theorem gpioSysfsSetActiveLow_of_oneEdge {value : Int}
    (h : n.desc.activeLow ≠ decide (value ≠ 0)) (hone : n.OneEdge) :
    n.gpioSysfsSetActiveLow chip c value =
      ((n.setPolarity (decide (value ≠ 0))).gpioSysfsFreeIrq chip).map
        (gpioSysfsRequestIrq chip c n.dev.irqFlags) := by
  rw [gpioSysfsSetActiveLow, if_neg h]
  exact if_pos hone

theorem gpioSysfsSetActiveLow_of_not_oneEdge {value : Int}
    (h : n.desc.activeLow ≠ decide (value ≠ 0)) (hone : ¬ n.OneEdge) :
    n.gpioSysfsSetActiveLow chip c value = some (0, n.setPolarity (decide (value ≠ 0))) := by
  rw [gpioSysfsSetActiveLow, if_neg h]
  exact if_neg hone

theorem sameHolder_setPolarity (n : Node) (value : Bool) :
    Desc.SameHolder n.desc (n.setPolarity value).desc := ⟨rfl, rfl, rfl⟩

theorem irqAvailable_setPolarity (n : Node) (value : Bool) :
    (n.setPolarity value).desc.irqAvailable chip c = n.desc.irqAvailable chip c := rfl

theorem activeLowStore_of_ok {kstrtol : String → Kstrtol} {number : Int}
    (hparse : kstrtol buf = .ok number) :
    n.activeLowStore kstrtol chip c buf =
      (n.gpioSysfsSetActiveLow chip c (number.bmod (2 ^ 32))).map
        fun ret => (orSize ret.1 buf, ret.2) := by
  rw [activeLowStore, hparse]

theorem rerequest_outcome {lost : Prop} {value : Bool} (h : n.Good) (hone : n.OneEdge)
    (hfree : (n.setPolarity value).gpioSysfsFreeIrq chip = some m)
    (hlost : lost ↔ n.desc.irqAvailable chip c = false) :
    Outcome lost n (orSize (m.gpioSysfsRequestIrq chip c n.dev.irqFlags).1 buf)
      (m.gpioSysfsRequestIrq chip c n.dev.irqFlags).2 := by
  obtain ⟨hmem, hne⟩ := hone.mem
  have hidle : m.Idle := ((h.holds hne).setPolarity value).idle_of_free hfree
  have havail : m.desc.irqAvailable chip c = n.desc.irqAvailable chip c :=
    (irqAvailable_of_free hfree).trans (n.irqAvailable_setPolarity value)
  have hreq := m.sameUse_gpioSysfsRequestIrq chip c n.dev.irqFlags
  have hholder := (n.sameHolder_setPolarity value).trans
    ((sameUse_of_free hfree).holder.trans hreq.holder)
  cases hcan : n.desc.irqAvailable chip c with
  | true =>
    obtain ⟨hret, hgood⟩ := hidle.request_good (havail.trans hcan) hmem hne
    refine .of_nonneg hgood hholder ?_ ?_
    · rw [hret]
      exact orSize_zero_nonneg buf
    · rw [hlost, hcan]
      exact nofun
  | false =>
    obtain ⟨hret, hidle'⟩ := hidle.request_fails n.dev.irqFlags (havail.trans hcan)
    rw [orSize_of_neg hret]
    refine .of_lost hidle'.good hholder hret ?_ (hlost.mpr hcan)
    intro hconfig
    have heq := congrArg Prod.fst hconfig
    exact hne (heq.symm.trans hidle'.irqFlags)

/-- What writing `active_low` can do. -/
theorem activeLowStore_outcome {kstrtol : String → Kstrtol} {ret : Int} (h : n.Good)
    (hrun : n.activeLowStore kstrtol chip c buf = some (ret, m)) :
    Outcome (n.PolarityLost kstrtol chip c buf) n ret m := by
  cases hparse : kstrtol buf with
  | einval =>
    rw [activeLowStore, hparse] at hrun
    obtain ⟨rfl, rfl⟩ := Prod.mk.inj (Option.some.inj hrun)
    exact .of_config h (.refl n.desc) rfl fun ⟨_, hok, _⟩ => by rw [hparse] at hok; cases hok
  | erange =>
    rw [activeLowStore, hparse] at hrun
    obtain ⟨rfl, rfl⟩ := Prod.mk.inj (Option.some.inj hrun)
    exact .of_config h (.refl n.desc) rfl fun ⟨_, hok, _⟩ => by rw [hparse] at hok; cases hok
  | ok number =>
    have hlost : n.PolarityLost kstrtol chip c buf ↔
        n.desc.activeLow ≠ decide (number.bmod (2 ^ 32) ≠ 0) ∧ n.OneEdge ∧ chip.isSome = true ∧
          n.desc.irqAvailable chip c = false := by
      constructor
      · rintro ⟨number', hok, hrest⟩
        rw [hparse, Kstrtol.ok.injEq] at hok
        exact hok ▸ hrest
      · exact fun hrest => ⟨number, hparse, hrest⟩
    rw [activeLowStore_of_ok hparse] at hrun
    generalize number.bmod (2 ^ 32) = value at hrun hlost
    obtain ⟨r, hset, hret⟩ := Option.map_eq_some_iff.mp hrun
    obtain ⟨rfl, rfl⟩ := Prod.mk.inj hret
    by_cases heq : n.desc.activeLow = decide (value ≠ 0)
    · rw [gpioSysfsSetActiveLow_of_eq heq, Option.some_inj] at hset
      rw [← hset]
      exact .of_nonneg h (.refl n.desc) (orSize_zero_nonneg buf) fun hl => (hlost.mp hl).1 heq
    by_cases hone : n.OneEdge
    · rw [gpioSysfsSetActiveLow_of_oneEdge heq hone] at hset
      obtain ⟨m', hfree, rfl⟩ := Option.map_eq_some_iff.mp hset
      refine rerequest_outcome h hone hfree ?_
      rw [hlost]
      exact ⟨fun hl => hl.2.2.2, fun hl => ⟨heq, hone, gpioSysfsFreeIrq_isSome hfree, hl⟩⟩
    · rw [gpioSysfsSetActiveLow_of_not_oneEdge heq hone, Option.some_inj] at hset
      rw [← hset]
      exact .of_nonneg (h.setPolarity hone _) (n.sameHolder_setPolarity _) (orSize_zero_nonneg buf)
        fun hl => hone (hlost.mp hl).2.1

theorem PolarityLost.exists_run {kstrtol : String → Kstrtol}
    (h : n.PolarityLost kstrtol chip c buf) :
    ∃ ret m, n.activeLowStore kstrtol chip c buf = some (ret, m) := by
  obtain ⟨number, hparse, hne, hone, hchip, -⟩ := h
  obtain ⟨m, hfree⟩ := exists_gpioSysfsFreeIrq hchip
    (n.setPolarity (decide (number.bmod (2 ^ 32) ≠ 0)))
  rw [activeLowStore_of_ok hparse, gpioSysfsSetActiveLow_of_oneEdge hne hone, hfree]
  exact ⟨_, _, rfl⟩

theorem directionStore_outcome (h : n.Good) :
    Outcome False n (n.desc.directionStore chip c buf).1
      { n with desc := (n.desc.directionStore chip c buf).2 } := by
  obtain ⟨out, hout⟩ := n.desc.onlyDirection_directionStore c chip buf
  rw [hout]
  exact .of_config ⟨h.idle, h.watched, h.valueKn, h.flags⟩ ⟨rfl, rfl, rfl⟩ rfl id

end Node

end RealtekIpcam.Gpiolib.Sysfs
