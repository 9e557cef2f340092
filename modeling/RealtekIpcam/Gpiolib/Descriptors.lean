import RealtekIpcam.Gpiolib.Sysfs

/-!
# What the operations of a GPIO descriptor leave alone

Most operations change the direction of a line and nothing else: `Desc.OnlyDirection`.  None of them
changes who uses the line: `Desc.SameUse`.  Whether a line can be locked as an interrupt is
`irqDirection`, and whether its request is granted is `RequestGranted`.
-/

namespace RealtekIpcam.Gpiolib.Sysfs

/-! ## Operations that leave the use of the line alone -/

namespace Desc

/-- The flags that say who uses the line are the same. -/
structure SameHolder (d d' : Desc) : Prop where
  requested : d'.requested = d.requested
  exported : d'.exported = d.exported
  sysfs : d'.sysfs = d.sysfs

theorem SameHolder.refl (d : Desc) : SameHolder d d := ⟨rfl, rfl, rfl⟩

theorem SameHolder.trans {d d' d'' : Desc} (h : SameHolder d d') (h' : SameHolder d' d'') :
    SameHolder d d'' :=
  ⟨h'.requested.trans h.requested, h'.exported.trans h.exported, h'.sysfs.trans h.sysfs⟩

/-- The polarity is the same as well. -/
structure SameUse (d d' : Desc) : Prop where
  holder : SameHolder d d'
  activeLow : d'.activeLow = d.activeLow

theorem SameUse.refl (d : Desc) : SameUse d d := ⟨.refl d, rfl⟩

theorem SameUse.trans {d d' d'' : Desc} (h : SameUse d d') (h' : SameUse d' d'') :
    SameUse d d'' :=
  ⟨h.holder.trans h'.holder, h'.activeLow.trans h.activeLow⟩

theorem snd_ite {P : Desc → Prop} {c : Prop} [Decidable c] {r₁ r₂ : Int × Desc} (h₁ : P r₁.2)
    (h₂ : P r₂.2) : P (if c then r₁ else r₂).2 := by
  by_cases hc : c
  · rwa [if_pos hc]
  · rwa [if_neg hc]

/-- Nothing but the direction is different. -/
def OnlyDirection (d d' : Desc) : Prop := ∃ out, d' = { d with isOut := out }

theorem OnlyDirection.refl (d : Desc) : OnlyDirection d d := ⟨d.isOut, rfl⟩

theorem OnlyDirection.sameUse {d d' : Desc} (h : OnlyDirection d d') : SameUse d d' := by
  obtain ⟨out, rfl⟩ := h
  exact ⟨⟨rfl, rfl, rfl⟩, rfl⟩

theorem onlyDirection_isOut {c : Prop} [Decidable c] (d : Desc) (out : Bool) :
    OnlyDirection d (if c then { d with isOut := out } else d) := by
  by_cases hc : c
  · rw [if_pos hc]
    exact ⟨out, rfl⟩
  · rw [if_neg hc]
    exact .refl d

variable (chip : Chip) (c : Calls) (d : Desc)

theorem onlyDirection_gpiodGetDirection : OnlyDirection d (d.gpiodGetDirection chip c).2 :=
  snd_ite (.refl d) (snd_ite (.refl d) (snd_ite ⟨false, rfl⟩ (snd_ite ⟨true, rfl⟩ (.refl d))))

theorem onlyDirection_gpiodDirectionInput (chip : Option Chip) :
    OnlyDirection d (d.gpiodDirectionInput chip c).2 := by
  cases chip with
  | none => exact .refl d
  | some chip =>
    exact snd_ite (.refl d) (snd_ite (onlyDirection_isOut d false)
      (snd_ite (.refl d) ⟨false, rfl⟩))

theorem onlyDirection_gpiodDirectionOutputRaw (chip : Option Chip) :
    OnlyDirection d (d.gpiodDirectionOutputRaw chip c).2 := by
  cases chip with
  | none => exact .refl d
  | some chip =>
    exact snd_ite (.refl d) (snd_ite (onlyDirection_isOut d true)
      (snd_ite (.refl d) ⟨true, rfl⟩))

theorem onlyDirection_directionStore (chip : Option Chip) (buf : String) :
    OnlyDirection d (d.directionStore chip c buf).2 := by
  have hout := onlyDirection_gpiodDirectionOutputRaw c d chip
  exact snd_ite hout (snd_ite hout
    (snd_ite (onlyDirection_gpiodDirectionInput c d chip) (.refl d)))

theorem sameUse_gpiodSetTransitory (chip : Option Chip) (transitory : Bool) :
    SameUse d (d.gpiodSetTransitory chip c transitory).2 := by
  cases chip with
  | none => exact .refl d
  | some chip =>
    have hset : SameUse d { d with transitory := transitory } := ⟨⟨rfl, rfl, rfl⟩, rfl⟩
    exact snd_ite hset (snd_ite hset hset)

theorem sameUse_gpiochipLockAsIrq : SameUse d (d.gpiochipLockAsIrq chip c).2 := by
  have hdir : SameUse d (if (!chip.canSleep && chip.getDirection) = true then
      d.gpiodGetDirection chip c else (0, d)).2 :=
    snd_ite (onlyDirection_gpiodGetDirection chip c d).sameUse (.refl d)
  exact snd_ite hdir (snd_ite hdir (hdir.trans ⟨⟨rfl, rfl, rfl⟩, rfl⟩))

theorem sameUse_gpiochipUnlockAsIrq : SameUse d d.gpiochipUnlockAsIrq := ⟨⟨rfl, rfl, rfl⟩, rfl⟩

/-! ## When the line can have its interrupt -/

/-- The direction of the line is known and lets it be an interrupt. -/
def irqDirection (chip : Chip) (c : Calls) (d : Desc) : Bool :=
  if !chip.canSleep && chip.getDirection && !(d.openDrain && d.isOut) then
    decide (0 < c.getDirection) || (decide (c.getDirection = 0) && d.openDrain)
  else !d.isOut || d.openDrain

/-- The chip has an interrupt for the line, the file `value` is found, the line can be locked as an
interrupt, and the interrupt core accepts the request. -/
def irqAvailable (chip : Option Chip) (c : Calls) (d : Desc) : Bool :=
  match chip with
  | none => false
  | some chip =>
    decide (0 ≤ gpiodToIrq (some chip) c) && c.getDirent && d.irqDirection chip c &&
      decide (0 ≤ c.requestAnyContextIrq)

@[simp] theorem irqAvailable_unlock (chip : Option Chip) :
    d.gpiochipUnlockAsIrq.irqAvailable chip c = d.irqAvailable chip c := rfl

theorem gpiochipLockAsIrq_eq {dir : Int × Desc}
    (hdir : (if !chip.canSleep && chip.getDirection then d.gpiodGetDirection chip c else (0, d)) =
      dir) :
    d.gpiochipLockAsIrq chip c =
      if dir.1 < 0 then dir
      else if dir.2.isOut && !dir.2.openDrain then (- EIO, dir.2)
      else (0, { dir.2 with
        usedAsIrq := true
        irqIsEnabled := true
        label := some (dir.2.label.getD "interrupt") }) := by
  subst hdir
  rfl

theorem gpiochipLockAsIrq_nonneg_iff :
    0 ≤ (d.gpiochipLockAsIrq chip c).1 ↔ d.irqDirection chip c = true := by
  rw [gpiochipLockAsIrq_eq chip c d rfl, irqDirection]
  by_cases hflush : (!chip.canSleep && chip.getDirection) = true
  · have hget : chip.getDirection = true := (Bool.and_eq_true_iff.mp hflush).2
    rw [if_pos hflush, hflush, gpiodGetDirection]
    by_cases hdrain : (d.openDrain && d.isOut) = true
    · have hboth := Bool.and_eq_true_iff.mp hdrain
      simp [hboth.1, hboth.2]
    · rcases Int.lt_trichotomy c.getDirection 0 with hneg | hzero | hpos
      · have hne : c.getDirection ≠ 0 := by omega
        have hnpos : ¬ 0 < c.getDirection := by omega
        simp [hdrain, hget, hne, hnpos, hneg]
      · cases hod : d.openDrain
        · simp [hget, hzero, EIO]
        · have hin : d.isOut = false := by
            rw [hod, Bool.true_and] at hdrain
            exact Bool.eq_false_iff.mpr hdrain
          simp [hget, hzero, hin]
      · simp [hdrain, hget, hpos]
  · rw [if_neg hflush]
    cases hout : d.isOut <;> cases hod : d.openDrain <;> simp [hflush, hout, hod, EIO]

theorem gpiochipLockAsIrq_usedAsIrq (h : 0 ≤ (d.gpiochipLockAsIrq chip c).1) :
    (d.gpiochipLockAsIrq chip c).2.usedAsIrq = true := by
  rw [gpiochipLockAsIrq_eq chip c d rfl] at h ⊢
  generalize (if !chip.canSleep && chip.getDirection then d.gpiodGetDirection chip c else (0, d)) =
    dir at h ⊢
  by_cases hneg : dir.1 < 0
  · rw [if_pos hneg] at h
    omega
  · rw [if_neg hneg] at h ⊢
    by_cases hout : (dir.2.isOut && !dir.2.openDrain) = true
    · rw [if_pos hout] at h
      have hpos : 0 ≤ - EIO := h
      exact absurd hpos (by decide)
    · rw [if_neg hout]

def RequestGranted (chip : Chip) (c : Calls) (d : Desc) : Prop :=
  c.tryModuleGet = true ∧ c.kstrdup = true ∧ d.requested = false ∧
    (chip.request = true → c.lineIsValid = true ∧ 0 ≤ c.request)

variable {chip c d}

/-- A refused request changes the label at most. -/
theorem gpiodRequest_fails (h : ¬ RequestGranted chip c d) (label : String) :
    (d.gpiodRequest (some chip) c label).1 < 0 ∧
      ∃ label', (d.gpiodRequest (some chip) c label).2 = { d with label := label' } := by
  show (if c.tryModuleGet then d.gpiodRequestCommit chip c label else (-EPROBE_DEFER, d)).1 < 0 ∧
    ∃ label', (if c.tryModuleGet then d.gpiodRequestCommit chip c label
      else (-EPROBE_DEFER, d)).2 = { d with label := label' }
  by_cases hmodule : c.tryModuleGet = true
  · rw [if_pos hmodule, Desc.gpiodRequestCommit]
    by_cases hdup : (!c.kstrdup) = true
    · rw [if_pos hdup]
      exact ⟨(by decide : -ENOMEM < 0), d.label, rfl⟩
    rw [if_neg hdup]
    by_cases hreq : d.requested = true
    · rw [if_pos hreq]
      exact ⟨(by decide : -EBUSY < 0), d.label, rfl⟩
    rw [if_neg hreq]
    rw [Bool.not_eq_true, Bool.not_eq_false'] at hdup
    have hreq' : d.requested = false := Bool.eq_false_iff.mpr hreq
    have hneg :
        (if chip.request then (if c.lineIsValid then c.request else -EINVAL) else 0) < 0 := by
      by_contra hcon
      refine h ⟨hmodule, hdup, hreq', fun hr => ?_⟩
      rw [if_pos hr] at hcon
      by_cases hvalid : c.lineIsValid = true
      · rw [if_pos hvalid] at hcon
        exact ⟨hvalid, not_lt.mp hcon⟩
      · rw [if_neg hvalid] at hcon
        exact absurd (by decide) hcon
    rw [if_pos hneg]
    refine ⟨hneg, none, ?_⟩
    rw [← hreq']
  · rw [if_neg hmodule]
    exact ⟨(by decide : -EPROBE_DEFER < 0), d.label, rfl⟩

theorem gpiodRequest_granted (h : RequestGranted chip c d) (label : String) :
    0 ≤ (d.gpiodRequest (some chip) c label).1 ∧ (d.gpiodRequest (some chip) c label).2 =
      if chip.getDirection then
        (gpiodGetDirection chip c { d with requested := true, label := some label }).2
      else { d with requested := true, label := some label } := by
  obtain ⟨hmodule, hdup, hreq, hgranted⟩ := h
  have hret :
      ¬ (if chip.request then (if c.lineIsValid then c.request else -EINVAL) else 0) < 0 := by
    by_cases hr : chip.request = true
    · rw [if_pos hr, if_pos (hgranted hr).1]
      exact not_lt.mpr (hgranted hr).2
    · rw [if_neg hr]
      decide
  have hrun : d.gpiodRequest (some chip) c label =
      (if chip.request then (if c.lineIsValid then c.request else -EINVAL) else 0,
        if chip.getDirection then
          (gpiodGetDirection chip c { d with requested := true, label := some label }).2
        else { d with requested := true, label := some label }) := by
    rw [gpiodRequest, if_pos hmodule, gpiodRequestCommit, hdup, hreq]
    exact if_neg hret
  rw [hrun]
  exact ⟨not_lt.mp hret, rfl⟩

end Desc

end RealtekIpcam.Gpiolib.Sysfs
