import RealtekIpcam.Gpiolib.SysfsEdge

/-!
# The life of a line in sysfs

Between two writes, a line that was requested through `export` carries both `FLAG_EXPORT` and
`FLAG_SYSFS`, and its interrupt is held exactly while an edge is chosen.  A write that fails should
change none of this.

Three writes do: an `export` whose line does not take the persistence setting stays requested, and
`edge` and `active_low` may lose the edge that was chosen.  `sound_iff` says that there are no
others, in any sequence of writes and removals of chips.
-/

namespace RealtekIpcam.Gpiolib.Sysfs

open Runs

/-! ## What is to hold -/

/-- `data->irq_flags`, which are none without a class device. -/
def Line.irqFlags (l : Line) : BitVec 8 := (l.device.map ClassDevice.irqFlags).getD 0#8

/-- **The interrupt of a line**: requested, locked and referenced once if an edge is chosen, and not
at all otherwise. -/
structure Line.Served (l : Line) : Prop where
  idle : l.irqFlags = 0#8 → l.held = Held.none
  watched : l.irqFlags ≠ 0#8 → l.desc.usedAsIrq = true ∧
    ∃ irq, l.held = ⟨[⟨irq, triggerOf (mirror l.irqFlags l.desc.activeLow)⟩], 1, 1⟩

/-- Nobody has requested the line, and nothing of it is in sysfs. -/
structure Desc.Free (d : Desc) : Prop where
  requested : d.requested = false
  exported : d.exported = false
  sysfs : d.sysfs = false

/-- The edge that is chosen, the polarity, and what serves it. -/
def Line.edgeConfig (l : Line) : BitVec 8 × Bool × Held := (l.irqFlags, l.desc.activeLow, l.held)

namespace Line

variable {chip : Option Chip} {gdev : Gdev} {c : Calls} {buf : String} {theirs : Bool}
  {l l' : Line} {status : Int}

/-! ## The invariant of a line -/

/-- The class device of a line is there while the flag says so, and its interrupt is in order. -/
structure Sane (l : Line) : Prop where
  device : l.desc.exported = l.device.isSome
  good : ∀ dev, l.device = some dev → (Node.mk l.desc dev l.held).Good
  idle : l.device = none → l.held = Held.none

/-- **The invariant of a line.**  `theirs` is whether a driver holds it: then it is not in the hands
of user space, and otherwise it is requested only if it is. -/
structure Inv (theirs : Bool) (chip : Option Chip) (l : Line) : Prop extends Sane l where
  requested : l.desc.exported = true → l.desc.requested = true
  sysfs : l.desc.sysfs = true → l.desc.exported = true ∧ theirs = false ∧ chip.isSome = true
  ours : l.desc.requested = true → theirs = false → l.desc.sysfs = true
  held : chip.isSome = true → theirs = true → l.desc.requested = true

theorem Sane.served (h : l.Sane) : l.Served := by
  cases hdev : l.device with
  | none =>
    refine ⟨fun _ => h.idle hdev, fun hne => absurd ?_ hne⟩
    rw [Line.irqFlags, hdev]
    rfl
  | some dev =>
    have hgood := h.good dev hdev
    have hflags : l.irqFlags = dev.irqFlags := by rw [Line.irqFlags, hdev]; rfl
    refine ⟨fun hzero => hgood.idle (hflags.symm.trans hzero), fun hne => ?_⟩
    rw [hflags] at hne ⊢
    exact ⟨(hgood.watched hne).1, _, (hgood.watched hne).2⟩

theorem Inv.of_free (hfree : l.desc.Free) (hdevice : l.device = none) (hheld : l.held = Held.none)
    (htheirs : chip.isSome = true → theirs = false) : l.Inv theirs chip where
  device := by rw [hfree.exported, hdevice]; rfl
  good dev hdev := by rw [hdevice] at hdev; cases hdev
  idle _ := hheld
  requested h := by rw [hfree.exported] at h; cases h
  sysfs h := by rw [hfree.sysfs] at h; cases h
  ours h := by rw [hfree.requested] at h; cases h
  held hchip h := by rw [htheirs hchip] at h; cases h

theorem Sane.device_eq_none (h : l.Sane) (hexported : l.desc.exported = false) :
    l.device = none := by
  cases hdev : l.device with
  | none => rfl
  | some dev =>
    have hdevice := h.device
    rw [hexported, hdev] at hdevice
    cases hdevice

/-! ## Freeing -/

theorem Sane.setSysfs (h : l.Sane) (value : Bool) : (l.setSysfs value).Sane where
  device := h.device
  good dev hdev :=
    ⟨(h.good dev hdev).idle, (h.good dev hdev).watched, (h.good dev hdev).valueKn,
      (h.good dev hdev).flags⟩
  idle := h.idle

/-- What `gpiod_unexport` leaves. -/
structure Unexported (l l' : Line) : Prop where
  exported : l'.desc.exported = false
  device : l'.device = none
  held : l'.held = Held.none
  requested : l'.desc.requested = l.desc.requested
  sysfs : l'.desc.sysfs = l.desc.sysfs

theorem Sane.gpiodUnexport (h : l.Sane) (hrun : l.gpiodUnexport chip = some l') :
    Unexported l l' := by
  rw [Line.gpiodUnexport] at hrun
  by_cases hexp : l.desc.exported = true
  · rw [hexp, if_neg (by decide)] at hrun
    cases hdev : l.device with
    | none =>
      have hdevice := h.device
      rw [hexp, hdev] at hdevice
      cases hdevice
    | some dev =>
      rw [Line.node, hdev] at hrun
      obtain ⟨m, hfree, rfl⟩ := Option.map_eq_some_iff.mp hrun
      have hgood := h.good dev hdev
      have hgood' : (Node.mk { l.desc with exported := false } dev l.held).Good :=
        ⟨hgood.idle, hgood.watched, hgood.valueKn, hgood.flags⟩
      obtain ⟨hidle, huse⟩ := hgood'.freeOldIrq hfree
      exact ⟨huse.holder.exported, rfl, hidle.held, huse.holder.requested, huse.holder.sysfs⟩
  · have hexp' : l.desc.exported = false := Bool.eq_false_iff.mpr hexp
    rw [hexp', Bool.not_false, if_pos rfl, Option.some_inj] at hrun
    have hdevice := h.device_eq_none hexp'
    rw [← hrun]
    exact ⟨hexp', hdevice, h.idle hdevice, rfl, rfl⟩

theorem Sane.gpiodFree (h : l.Sane) (hchip : chip.isSome = true)
    (hrun : l.gpiodFree chip = some l') :
    l'.desc.requested = false ∧ l'.desc.exported = false ∧ l'.desc.sysfs = l.desc.sysfs ∧
      l'.device = none ∧ l'.held = Held.none := by
  obtain ⟨u, hun, rfl⟩ := Option.map_eq_some_iff.mp hrun
  have hu := h.gpiodUnexport hun
  rw [hchip, Bool.true_and]
  by_cases hreq : u.desc.requested = true
  · rw [if_pos hreq]
    exact ⟨rfl, hu.exported, hu.sysfs, hu.device, hu.held⟩
  · rw [if_neg hreq]
    exact ⟨Bool.eq_false_iff.mpr hreq, hu.exported, hu.sysfs, hu.device, hu.held⟩

theorem Inv.freeSysfs (h : l.Inv theirs chip) (hrun : l.freeSysfs chip = some l') :
    l'.Inv theirs chip ∧ l'.desc.sysfs = false := by
  rw [Line.freeSysfs] at hrun
  by_cases hsysfs : l.desc.sysfs = true
  · rw [if_pos hsysfs] at hrun
    obtain ⟨-, htheirs, hchip⟩ := h.sysfs hsysfs
    obtain ⟨hreq, hexp, hclear, hdev, hheld⟩ := (h.toSane.setSysfs false).gpiodFree hchip hrun
    exact ⟨.of_free ⟨hreq, hexp, hclear⟩ hdev hheld fun _ => htheirs, hclear⟩
  · rw [if_neg hsysfs, Option.some_inj] at hrun
    exact hrun ▸ ⟨h, Bool.eq_false_iff.mpr hsysfs⟩

theorem Inv.freeHog (h : l.Inv theirs none) (hchip : chip.isSome = true)
    (hrun : l.freeHog chip = some l') : l'.Inv theirs none := by
  have hsysfs : l.desc.sysfs = false := by
    cases hs : l.desc.sysfs with
    | false => rfl
    | true => cases (h.sysfs hs).2.2
  rw [Line.freeHog] at hrun
  by_cases hhog : l.desc.isHogged = true
  · rw [if_pos hhog] at hrun
    obtain ⟨hreq, hexp, hkeep, hdev, hheld⟩ := h.toSane.gpiodFree hchip hrun
    exact .of_free ⟨hreq, hexp, hkeep.trans hsysfs⟩ hdev hheld nofun
  · rw [if_neg hhog, Option.some_inj] at hrun
    exact hrun ▸ h

/-! ## Export and unexport -/

/-- The chip refuses the persistence setting, for another reason than that it has none. -/
def TransitoryRefused (chip : Chip) (c : Calls) : Prop :=
  chip.setConfig = true ∧ c.setConfig ≠ 0 ∧ c.setConfig ≠ -ENOTSUPP

/-- **An `export` that leaves the line requested**: it is granted, and then the chip refuses the
persistence setting. -/
def ExportLost (gdev : Gdev) (c : Calls) (l : Line) : Prop :=
  ∃ chip, gdev.chip = some chip ∧ c.lineIsValid = true ∧ Desc.RequestGranted chip c l.desc ∧
    TransitoryRefused chip c

theorem sameHolder_gpiodRequest {chip : Chip} {d : Desc} (h : Desc.RequestGranted chip c d)
    (label : String) :
    Desc.SameHolder { d with requested := true } (d.gpiodRequest (some chip) c label).2 := by
  rw [(Desc.gpiodRequest_granted h label).2]
  by_cases hget : chip.getDirection = true
  · rw [if_pos hget]
    have hsame := (Desc.onlyDirection_gpiodGetDirection chip c
      { d with requested := true, label := some label }).sameUse.holder
    exact ⟨hsame.requested, hsame.exported, hsame.sysfs⟩
  · rw [if_neg hget]
    exact ⟨rfl, rfl, rfl⟩

theorem gpiodSetTransitory_ne_zero_iff {chip : Chip} {d : Desc} {transitory : Bool} :
    (d.gpiodSetTransitory (some chip) c transitory).1 ≠ 0 ↔ TransitoryRefused chip c := by
  rw [Desc.gpiodSetTransitory, TransitoryRefused]
  cases chip.setConfig with
  | false => simp
  | true =>
    rw [Bool.not_true, if_neg Bool.false_ne_true]
    by_cases hnone : c.setConfig = -ENOTSUPP
    · simp [hnone]
    · simp [hnone]

theorem gpiodExport_cases {directionMayChange : Bool} {ret : Int × Line}
    (hret : l.gpiodExport gdev c directionMayChange = ret) :
    ret.1 < 0 ∧ ret.2 = l ∨
      gdev.mockdev = true ∧ ∃ dev : ClassDevice, dev.irqFlags = 0#8 ∧
        ret = (0, { l with desc := { l.desc with exported := true }, device := some dev }) := by
  obtain ⟨chip | chip, mockdev⟩ := gdev
  · rw [← hret]
    exact Or.inl ⟨Node.neg_enodev, rfl⟩
  · simp only [gpiodExport] at hret
    by_cases hmock : (!mockdev) = true
    · rw [if_pos hmock] at hret
      exact Or.inl (hret ▸ ⟨Node.neg_enodev, rfl⟩)
    rw [if_neg hmock] at hret
    by_cases hperm : (!l.desc.requested || l.desc.exported) = true
    · rw [if_pos hperm] at hret
      exact Or.inl (hret ▸ ⟨(by decide : -EPERM < 0), rfl⟩)
    rw [if_neg hperm] at hret
    by_cases halloc : (!c.kzalloc) = true
    · rw [if_pos halloc] at hret
      exact Or.inl (hret ▸ ⟨(by decide : -ENOMEM < 0), rfl⟩)
    rw [if_neg halloc] at hret
    by_cases herr : -4095 ≤ c.deviceCreate ∧ c.deviceCreate < 0
    · rw [if_pos herr] at hret
      exact Or.inl (hret ▸ ⟨herr.2, rfl⟩)
    rw [if_neg herr] at hret
    refine Or.inr ⟨?_, _, ?_, hret.symm⟩
    · simpa using hmock
    · rfl

/-- What an `export` comes to. -/
structure Exported (theirs : Bool) (gdev : Gdev) (l : Line) (ret : Int) (l' : Line) : Prop where
  inv : l'.Inv theirs gdev.chip
  mockdev : l'.desc.sysfs = true → l.desc.sysfs = true ∨ gdev.mockdev = true
  free : ret < 0 → l.desc.requested = false → l'.desc.Free

theorem exported_of_requested {ret : Int × Line} (hdesc : l.desc.requested = true)
    (hexp : l.desc.exported = false) (hsysfs : l.desc.sysfs = false) (hdev : l.device = none)
    (hheld : l.held = Held.none) (hchip : gdev.chip.isSome = true)
    (hexport : l.gpiodExport gdev c true = ret)
    (hrun : (if ret.1 < 0 then (ret.2.gpiodFree gdev.chip).map fun l => (ret.1, l)
      else some (orSize ret.1 buf, ret.2.setSysfs true)) = some (status, l')) (l₀ : Line) :
    Exported false gdev l₀ status l' := by
  have hsane : l.Sane := by
    refine ⟨by rw [hexp, hdev]; rfl, fun dev h => ?_, fun _ => hheld⟩
    rw [hdev] at h
    cases h
  rcases gpiodExport_cases hexport with ⟨hneg, hsame⟩ | ⟨hmock, dev, hflags, hok⟩
  · rw [if_pos hneg, hsame] at hrun
    obtain ⟨u, hfree, hret⟩ := Option.map_eq_some_iff.mp hrun
    obtain ⟨-, rfl⟩ := Prod.mk.inj hret
    obtain ⟨hreq, hexp', hkeep, hdev', hheld'⟩ := hsane.gpiodFree hchip hfree
    have hfree' : u.desc.Free := ⟨hreq, hexp', hkeep.trans hsysfs⟩
    refine ⟨.of_free hfree' hdev' hheld' fun _ => rfl, fun h => ?_, fun _ _ => hfree'⟩
    rw [hfree'.sysfs] at h
    cases h
  · have hnneg : ¬ ret.1 < 0 := by
      rw [hok]
      exact lt_irrefl 0
    rw [if_neg hnneg, hok, Option.some_inj] at hrun
    obtain ⟨rfl, rfl⟩ := Prod.mk.inj hrun
    refine ⟨⟨⟨rfl, fun dev' h => ?_, nofun⟩, fun _ => hdesc, fun _ => ?_, fun _ _ => rfl, nofun⟩,
      fun _ => Or.inr hmock, fun hneg => ?_⟩
    · obtain rfl := Option.some.inj h
      exact Node.Idle.good ⟨hflags, hheld⟩
    · exact ⟨rfl, rfl, hchip⟩
    · exact absurd hneg (not_lt.mpr (orSize_zero_nonneg buf))

theorem exportRequested_spec {chip : Chip} {l₀ : Line} (h : l₀.Inv theirs (some chip))
    (hgdev : gdev.chip = some chip) (hl : l = { l₀ with desc := l.desc })
    (hfree : l₀.desc.requested = false)
    (hholder : Desc.SameHolder { l₀.desc with requested := true } l.desc)
    (hrun : l.exportRequested gdev c buf = some (status, l')) :
    theirs = false ∧
      (TransitoryRefused chip c ∧ l'.desc.requested = true ∧ l'.desc.sysfs = false ∨
        ¬ TransitoryRefused chip c ∧ Exported theirs gdev l₀ status l') := by
  have htheirs : theirs = false := by
    cases theirs with
    | false => rfl
    | true => exact absurd (h.held rfl rfl) (by rw [hfree]; exact nofun)
  have hexp : l₀.desc.exported = false := by
    by_contra hcon
    rw [h.requested (Bool.not_eq_false _ ▸ hcon)] at hfree
    cases hfree
  have hsysfs : l₀.desc.sysfs = false := by
    by_contra hcon
    rw [(h.sysfs (Bool.not_eq_false _ ▸ hcon)).1] at hexp
    cases hexp
  have hdev := h.device_eq_none hexp
  have huse := (l.desc.sameUse_gpiodSetTransitory c gdev.chip false).holder
  have hset : (l.desc.gpiodSetTransitory gdev.chip c false).1 ≠ 0 ↔ TransitoryRefused chip c := by
    rw [hgdev]
    exact gpiodSetTransitory_ne_zero_iff
  have hdev' : l.device = none := by rw [hl, hdev]
  have hheld' : l.held = Held.none := by rw [hl, h.idle hdev]
  refine ⟨htheirs, ?_⟩
  rw [exportRequested] at hrun
  by_cases hlost : (l.desc.gpiodSetTransitory gdev.chip c false).1 ≠ 0
  · rw [if_pos hlost, Option.some_inj] at hrun
    obtain ⟨-, rfl⟩ := Prod.mk.inj hrun
    exact Or.inl ⟨hset.mp hlost, huse.requested.trans hholder.requested,
      (huse.sysfs.trans hholder.sysfs).trans hsysfs⟩
  · rw [if_neg hlost] at hrun
    rw [htheirs]
    exact Or.inr ⟨fun hl => hlost (hset.mpr hl), exported_of_requested
      (l := { l with desc := (l.desc.gpiodSetTransitory gdev.chip c false).2 })
      (huse.requested.trans hholder.requested) ((huse.exported.trans hholder.exported).trans hexp)
      ((huse.sysfs.trans hholder.sysfs).trans hsysfs) hdev' hheld' (by rw [hgdev]; rfl) rfl hrun l₀⟩

theorem Inv.setLabel (h : l.Inv theirs chip) (label : Option String) :
    Inv theirs chip { l with desc := { l.desc with label := label } } where
  device := h.device
  good dev hdev :=
    ⟨(h.good dev hdev).idle, (h.good dev hdev).watched, (h.good dev hdev).valueKn,
      (h.good dev hdev).flags⟩
  idle := h.idle
  requested := h.requested
  sysfs := h.sysfs
  ours := h.ours
  held := h.held

theorem Inv.exported_refused (h : l.Inv theirs gdev.chip) (label : Option String) :
    Exported theirs gdev l status { l with desc := { l.desc with label := label } } := by
  refine ⟨h.setLabel label, fun hs => Or.inl hs, fun _ hreq => ⟨hreq, ?_, ?_⟩⟩
  · show l.desc.exported = false
    by_contra hcon
    rw [h.requested (Bool.not_eq_false _ ▸ hcon)] at hreq
    cases hreq
  · show l.desc.sysfs = false
    by_contra hcon
    rw [h.requested (h.sysfs (Bool.not_eq_false _ ▸ hcon)).1] at hreq
    cases hreq

/-- **`export_store`**: the line is lost, or it is free or in the hands of user space. -/
theorem Inv.exportStore (h : l.Inv theirs gdev.chip)
    (hrun : l.exportStore gdev c buf = some (status, l')) :
    (l.ExportLost gdev c ∧ theirs = false ∧ l'.desc.requested = true ∧ l'.desc.sysfs = false) ∨
      (¬ l.ExportLost gdev c ∧ Exported theirs gdev l status l') := by
  cases hchip : gdev.chip with
  | none =>
    rw [Line.exportStore, hchip] at hrun
    cases hrun
  | some chip =>
    have hlost : l.ExportLost gdev c ↔ c.lineIsValid = true ∧ Desc.RequestGranted chip c l.desc ∧
        TransitoryRefused chip c := by
      constructor
      · rintro ⟨chip', hchip', hrest⟩
        rw [hchip, Option.some_inj] at hchip'
        exact hchip' ▸ hrest
      · exact fun hrest => ⟨chip, hchip, hrest⟩
    simp only [Line.exportStore, hchip] at hrun
    by_cases hvalid : c.lineIsValid = true
    · rw [hvalid, Bool.not_true, if_neg Bool.false_ne_true] at hrun
      by_cases hgranted : Desc.RequestGranted chip c l.desc
      · have hret := (Desc.gpiodRequest_granted hgranted "sysfs").1
        have hholder := sameHolder_gpiodRequest hgranted "sysfs"
        rw [if_neg (not_lt.mpr hret)] at hrun
        rw [hchip] at h
        obtain ⟨htheirs, hlose | hkeep⟩ :=
          exportRequested_spec h hchip rfl hgranted.2.2.1 hholder hrun
        · exact Or.inl ⟨hlost.mpr ⟨hvalid, hgranted, hlose.1⟩, htheirs, hlose.2⟩
        · exact Or.inr ⟨fun hl => hkeep.1 (hlost.mp hl).2.2, hkeep.2⟩
      · obtain ⟨hret, label, hdesc⟩ := Desc.gpiodRequest_fails hgranted "sysfs"
        rw [if_pos hret, hdesc, Option.some_inj] at hrun
        obtain ⟨-, rfl⟩ := Prod.mk.inj hrun
        exact Or.inr ⟨fun hl => hgranted (hlost.mp hl).2.1, h.exported_refused label⟩
    · have hvalid' : c.lineIsValid = false := Bool.eq_false_iff.mpr hvalid
      rw [hvalid', Bool.not_false, if_pos rfl, Option.some_inj] at hrun
      obtain ⟨-, rfl⟩ := Prod.mk.inj hrun
      exact Or.inr ⟨fun hl => hvalid (hlost.mp hl).1, h.exported_refused l.desc.label⟩

variable (buf) in
theorem ExportLost.exists_run (h : l.ExportLost gdev c) :
    ∃ status l', l.exportStore gdev c buf = some (status, l') := by
  obtain ⟨chip, hchip, hvalid, hgranted, hset⟩ := h
  have hret := (Desc.gpiodRequest_granted hgranted "sysfs").1
  have hset' : (Desc.gpiodSetTransitory (some chip) c false
      (l.desc.gpiodRequest (some chip) c "sysfs").2).1 ≠ 0 :=
    gpiodSetTransitory_ne_zero_iff.mpr hset
  simp only [Line.exportStore, hchip, hvalid, Bool.not_true, if_neg Bool.false_ne_true,
    if_neg (not_lt.mpr hret), exportRequested, if_pos hset']
  exact ⟨_, _, rfl⟩

theorem Inv.unexportStore (h : l.Inv theirs chip)
    (hrun : l.unexportStore chip buf = some (status, l')) :
    l'.Inv theirs chip ∧ (l'.desc.sysfs = true → l.desc.sysfs = true) := by
  rw [Line.unexportStore] at hrun
  by_cases hsysfs : l.desc.sysfs = true
  · rw [if_pos hsysfs] at hrun
    obtain ⟨u, hfree, hret⟩ := Option.map_eq_some_iff.mp hrun
    obtain ⟨-, rfl⟩ := Prod.mk.inj hret
    exact ⟨(h.freeSysfs hfree).1, fun _ => hsysfs⟩
  · rw [if_neg hsysfs, Option.some_inj] at hrun
    obtain ⟨-, rfl⟩ := Prod.mk.inj hrun
    exact ⟨h, id⟩

theorem Inv.onFile {file : ClassDevice → Bool} {store : Node → Option (Int × Node)}
    {lost : Node → Prop} (h : l.Inv theirs chip)
    (hstore : ∀ n ret m, n.Good → store n = some (ret, m) → n.Outcome (lost n) ret m)
    (hrun : l.onFile file store = some (status, l')) :
    l'.Inv theirs chip ∧ (l'.desc.sysfs = true → l.desc.sysfs = true) ∧
      ((status < 0 → l'.edgeConfig = l.edgeConfig) ↔
        ¬ ∃ n, l.node = some n ∧ file n.dev = true ∧ lost n) := by
  have hunchanged : ∀ {lost' : Prop}, ¬ lost' →
      l.Inv theirs chip ∧ (l.desc.sysfs = true → l.desc.sysfs = true) ∧
        ((status < 0 → l.edgeConfig = l.edgeConfig) ↔ ¬ lost') :=
    fun hlost => ⟨h, id, fun _ => hlost, fun _ _ => rfl⟩
  rw [Line.onFile] at hrun
  cases hdev : l.device with
  | none =>
    have hnode : l.node = none := by rw [Line.node, hdev]; rfl
    rw [hnode, Option.some_inj] at hrun
    obtain ⟨-, rfl⟩ := Prod.mk.inj hrun
    refine hunchanged fun ⟨n, hn, _⟩ => ?_
    rw [hnode] at hn
    cases hn
  | some dev =>
    have hnode : l.node = some ⟨l.desc, dev, l.held⟩ := by rw [Line.node, hdev]; rfl
    simp only [hnode] at hrun
    by_cases hfile : file dev = true
    · rw [if_pos hfile] at hrun
      obtain ⟨⟨ret, m⟩, hrunNode, hret⟩ := Option.map_eq_some_iff.mp hrun
      obtain ⟨rfl, rfl⟩ := Prod.mk.inj hret
      obtain ⟨hgood, ⟨hreq, hexp, hsysfs⟩, hclean⟩ := hstore _ ret m (h.good dev hdev) hrunNode
      have hexported : l.desc.exported = true := by rw [h.device, hdev]; rfl
      have hconfig : l.edgeConfig = (Node.mk l.desc dev l.held).config := by
        rw [Line.edgeConfig, Line.irqFlags, hdev]
        rfl
      refine ⟨⟨⟨hexp.trans hexported, fun dev' h' => ?_, nofun⟩, fun _ => ?_, fun hs => ?_,
        fun hr ht => ?_, fun hc ht => ?_⟩, fun hs => hsysfs ▸ hs, ?_⟩
      · obtain rfl := Option.some.inj h'
        exact hgood
      · exact hreq.trans (h.requested hexported)
      · exact ⟨hexp.trans hexported, (h.sysfs (hsysfs ▸ hs)).2⟩
      · exact hsysfs.trans (h.ours (hreq ▸ hr) ht)
      · exact hreq.trans (h.held hc ht)
      · rw [hconfig]
        refine hclean.trans (not_congr ⟨fun hl => ⟨_, hnode, hfile, hl⟩, ?_⟩)
        rintro ⟨n, hn, -, hl⟩
        rw [hnode, Option.some_inj] at hn
        exact hn ▸ hl
    · rw [if_neg hfile, Option.some_inj] at hrun
      obtain ⟨-, rfl⟩ := Prod.mk.inj hrun
      refine hunchanged fun ⟨n, hn, hf, _⟩ => hfile ?_
      rw [hnode, Option.some_inj] at hn
      rw [← hn] at hf
      exact hf

end Line

end RealtekIpcam.Gpiolib.Sysfs
