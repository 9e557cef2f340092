import RealtekIpcam.Gpiolib.LineRequests

/-!
# What a failing request of GPIO lines leaves behind

It is what a request followed by `gpiod_free` leaves behind.  `gpiod_free` clears the flags of the
line's owner and does not put back what was there before, so that this is no change only if there
was nothing: if a line that nobody has requested carries no flags.  That is `Tidy`.

`Taken` is the invariant of the loops, that some of the lines have been requested and all else is as
it was; `unchanged_linehandleCreate` and `unchanged_lineeventCreate` are what follows from it.
-/

namespace RealtekIpcam.Gpiolib.LineRequests

open Sysfs Directions

/-! ## A line without an owner -/

/-- Nothing of an owner is set. -/
structure Blank (d : Desc) : Prop where
  activeLow : d.activeLow = false
  openDrain : d.openDrain = false
  openSource : d.openSource = false
  isHogged : d.isHogged = false
  label : d.label = none ∨ d.usedAsIrq = true ∧ d.label = some "interrupt"

/-- **A line that nobody has requested carries nothing of an owner.** -/
def Tidy (d : Desc) : Prop := d.requested = false → Blank d

/-- What a failing request leaves of a line.  A label that is there without a request is that of an
interrupt, and may be lost. -/
structure Restored (d d' : Desc) : Prop where
  requested : d'.requested = d.requested
  activeLow : d'.activeLow = d.activeLow
  openDrain : d'.openDrain = d.openDrain
  openSource : d'.openSource = d.openSource
  pullUp : d'.pullUp = d.pullUp
  pullDown : d'.pullDown = d.pullDown
  isHogged : d'.isHogged = d.isHogged
  label : d.requested = true ∨ d.usedAsIrq = false → d'.label = d.label

/-- What a holder may do with a line as far as `gpiod_free` does not clear it. -/
structure SameBias (d d' : Desc) : Prop where
  requested : d'.requested = d.requested
  pullUp : d'.pullUp = d.pullUp
  pullDown : d'.pullDown = d.pullDown

theorem Restored.refl (d : Desc) : Restored d d :=
  ⟨rfl, rfl, rfl, rfl, rfl, rfl, rfl, fun _ => rfl⟩

theorem SameBias.refl (d : Desc) : SameBias d d := ⟨rfl, rfl, rfl⟩

theorem SameBias.trans {d d' d'' : Desc} (h : SameBias d d') (h' : SameBias d' d'') :
    SameBias d d'' :=
  ⟨h'.requested.trans h.requested, h'.pullUp.trans h.pullUp, h'.pullDown.trans h.pullDown⟩

theorem sameBias_of_onlyDirection {d d' : Desc} (h : Desc.OnlyDirection d d') : SameBias d d' := by
  obtain ⟨out, rfl⟩ := h
  exact ⟨rfl, rfl, rfl⟩

theorem tidy_of_requested {d : Desc} (h : d.requested = true) : Tidy d := by
  intro hfree
  rw [h] at hfree
  cases hfree

theorem blank_release (d : Desc) : Blank d.release := ⟨rfl, rfl, rfl, rfl, Or.inl rfl⟩

theorem tidy_release (d : Desc) : Tidy d.release := fun _ => blank_release d

variable {chip : Chip} {c : Calls} {d : Desc} {p : Pin}

theorem restored_release {d₀ : Desc} (hfree : d₀.requested = false) (hblank : Blank d₀)
    (hup : d.pullUp = d₀.pullUp) (hdown : d.pullDown = d₀.pullDown) : Restored d₀ d.release where
  requested := hfree.symm
  activeLow := hblank.activeLow.symm
  openDrain := hblank.openDrain.symm
  openSource := hblank.openSource.symm
  pullUp := hup
  pullDown := hdown
  isHogged := hblank.isHogged.symm
  label h := by
    have hirq : d₀.usedAsIrq = false := h.resolve_left (by rw [hfree]; exact nofun)
    rcases hblank.label with hnone | ⟨hused, -⟩
    · exact hnone.symm
    · rw [hirq] at hused
      cases hused

/-! ## What the operations do with a descriptor -/

/-- **The request of a line** fails and leaves the line, or all but its label, or it is granted and
changes the label and the direction. -/
theorem gpiodRequestCommit_cases (chip : Chip) (c : Calls) (label : String) (d : Desc) :
    ((d.gpiodRequestCommit chip c label).1 < 0 ∧
      ((d.gpiodRequestCommit chip c label).2 = d ∨
        d.requested = false ∧ (d.gpiodRequestCommit chip c label).2 = { d with label := none })) ∨
    (0 ≤ (d.gpiodRequestCommit chip c label).1 ∧ d.requested = false ∧
      ∃ out, (d.gpiodRequestCommit chip c label).2 =
        { d with requested := true, label := some label, isOut := out }) := by
  rw [Desc.gpiodRequestCommit]
  by_cases hdup : (!c.kstrdup) = true
  · rw [if_pos hdup]
    exact Or.inl ⟨(by decide : -ENOMEM < 0), Or.inl rfl⟩
  rw [if_neg hdup]
  by_cases hreq : d.requested = true
  · rw [if_pos hreq]
    exact Or.inl ⟨(by decide : -EBUSY < 0), Or.inl rfl⟩
  have hfree : d.requested = false := Bool.eq_false_iff.mpr hreq
  rw [if_neg hreq]
  by_cases hneg : (if chip.request then (if c.lineIsValid then c.request else -EINVAL) else 0) < 0
  · rw [if_pos hneg]
    refine Or.inl ⟨hneg, Or.inr ⟨hfree, ?_⟩⟩
    rw [← hfree]
  · rw [if_neg hneg]
    refine Or.inr ⟨not_lt.mp hneg, hfree, ?_⟩
    by_cases hget : chip.getDirection = true
    · rw [if_pos hget]
      obtain ⟨out, hout⟩ := Desc.onlyDirection_gpiodGetDirection chip c
        { d with requested := true, label := some label }
      exact ⟨out, hout⟩
    · rw [if_neg hget]
      exact ⟨d.isOut, rfl⟩

theorem onlyDirection_ite {q : Prop} [Decidable q] {r₁ r₂ : Int × Pin}
    (h₁ : Desc.OnlyDirection d r₁.2.desc) (h₂ : Desc.OnlyDirection d r₂.2.desc) :
    Desc.OnlyDirection d (if q then r₁ else r₂).2.desc := by
  by_cases hq : q
  · rwa [if_pos hq]
  · rwa [if_neg hq]

theorem onlyDirection_emulateOutput (chip : Chip) (c : Calls) (p : Pin) :
    Desc.OnlyDirection p.desc (p.emulateOutput chip c).2.desc := by
  obtain ⟨out, hout⟩ := p.desc.onlyDirection_gpiodDirectionInput c (some chip)
  rw [Pin.emulateOutput]
  by_cases hret : (p.gpiodDirectionInput chip c).1 = 0
  · rw [if_pos hret]
    exact ⟨true, congrArg (fun d : Desc => { d with isOut := true }) hout⟩
  · rw [if_neg hret]
    exact ⟨out, hout⟩

theorem onlyDirection_directionOutput (value : Bool) (p : Pin) :
    Desc.OnlyDirection p.desc (p.gpiodDirectionOutput chip c value).2.desc := by
  have hraw : Desc.OnlyDirection p.desc (p.gpiodDirectionOutputRaw chip c).2.desc :=
    p.desc.onlyDirection_gpiodDirectionOutputRaw c (some chip)
  have hemu := onlyDirection_emulateOutput chip c p
  exact onlyDirection_ite (.refl _)
    (onlyDirection_ite (onlyDirection_ite hraw (onlyDirection_ite hemu hraw))
      (onlyDirection_ite (onlyDirection_ite hraw (onlyDirection_ite hemu hraw)) hraw))

theorem sameBias_configureLine (chip : Chip) (c : Calls) (lflags : BitVec 32) (value : BitVec 8)
    (p : Pin) : SameBias p.desc (configureLine chip c lflags value p).2.desc := by
  have hset : SameBias p.desc
      ((setFlags lflags p.desc).gpiodSetTransitory (some chip) c false).2 := by
    rw [gpiodSetTransitory_snd]
    exact ⟨rfl, rfl, rfl⟩
  rw [configureLine]
  split
  · exact hset
  split
  · exact hset.trans (sameBias_of_onlyDirection (onlyDirection_directionOutput _ _))
  split
  · exact hset.trans (sameBias_of_onlyDirection
      (Desc.onlyDirection_gpiodDirectionInput c _ (some chip)))
  · exact hset

theorem sameBias_lockAsIrq (chip : Chip) (c : Calls) (d : Desc) :
    SameBias d (d.gpiochipLockAsIrq chip c).2 := by
  have hdir : SameBias d (lockDirection chip c d).2 :=
    sameBias_of_onlyDirection (onlyDirection_lockDirection d)
  rw [Desc.gpiochipLockAsIrq_eq chip c d rfl]
  exact Desc.snd_ite hdir (Desc.snd_ite hdir (hdir.trans ⟨rfl, rfl, rfl⟩))

theorem sameBias_unlockAsIrq (d : Desc) : SameBias d d.gpiochipUnlockAsIrq := ⟨rfl, rfl, rfl⟩

/-! ## What the operations do with the device -/

namespace GpioDevice

variable {g g₀ : GpioDevice} {n : Nat}

@[simp] theorem setLine_self (n : Nat) (p : Pin) (g : GpioDevice) :
    (g.setLine n p).descs n = p := by
  simp [setLine]

@[simp] theorem setDesc_self (n : Nat) (d : Desc) (g : GpioDevice) :
    ((g.setDesc n d).descs n).desc = d := by
  rw [setDesc, setLine_self]

theorem setLine_of_ne {m : Nat} (h : m ≠ n) (p : Pin) (g : GpioDevice) :
    (g.setLine n p).descs m = g.descs m := by
  simp [setLine, h]

theorem setDesc_of_ne {m : Nat} (h : m ≠ n) (d : Desc) (g : GpioDevice) :
    (g.setDesc n d).descs m = g.descs m :=
  setLine_of_ne h _ g

@[simp] theorem setDesc_desc (n : Nat) (g : GpioDevice) : g.setDesc n (g.descs n).desc = g := by
  rw [setDesc, setLine, Function.update_eq_self]

theorem modulePut_moduleGet (n : Nat) (d : Desc) (g : GpioDevice) :
    (g.moduleGet.setDesc n d).modulePut = g.setDesc n d := by
  have hrefs : g.moduleRefs + 1 - 1 = g.moduleRefs := by omega
  exact congrArg (fun refs => { g.setDesc n d with moduleRefs := refs }) hrefs

theorem gpiodRequestCommit_cases (c : Calls) (label : Option String) (n : Nat) (g : GpioDevice) :
    ((g.gpiodRequestCommit c label n).1 < 0 ∧ ∃ d',
      (d' = (g.descs n).desc ∨
        (g.descs n).desc.requested = false ∧ d' = { (g.descs n).desc with label := none }) ∧
      (g.gpiodRequestCommit c label n).2 = g.setDesc n d') ∨
    (0 ≤ (g.gpiodRequestCommit c label n).1 ∧ (g.descs n).desc.requested = false ∧
      ∃ out, (g.gpiodRequestCommit c label n).2 = g.setDesc n { (g.descs n).desc with
        requested := true, label := some (label.getD "?"), isOut := out }) := by
  have hcases : ∀ c label, _ := fun c label =>
    LineRequests.gpiodRequestCommit_cases g.chip c label (g.descs n).desc
  cases label with
  | none =>
    rcases hcases { c with kstrdup := true } "?" with ⟨hneg, hdesc⟩ | ⟨hpos, hfree, out, hdesc⟩
    · exact Or.inl ⟨hneg, _, hdesc, rfl⟩
    · exact Or.inr ⟨hpos, hfree, out, congrArg (g.setDesc n) hdesc⟩
  | some label =>
    rcases hcases c label with ⟨hneg, hdesc⟩ | ⟨hpos, hfree, out, hdesc⟩
    · exact Or.inl ⟨hneg, _, hdesc, rfl⟩
    · exact Or.inr ⟨hpos, hfree, out, congrArg (g.setDesc n) hdesc⟩

/-- **`gpiod_request`** counts no reference if it fails, and one of each kind if it does not. -/
theorem gpiodRequest_cases (c : Calls) (label : Option String) (n : Nat) (g : GpioDevice) :
    ((g.gpiodRequest c label n).1 < 0 ∧ ∃ d',
      (d' = (g.descs n).desc ∨
        (g.descs n).desc.requested = false ∧ d' = { (g.descs n).desc with label := none }) ∧
      (g.gpiodRequest c label n).2 = g.setDesc n d') ∨
    (0 ≤ (g.gpiodRequest c label n).1 ∧ (g.descs n).desc.requested = false ∧
      ∃ out, (g.gpiodRequest c label n).2 = (g.moduleGet.getDevice).setDesc n
        { (g.descs n).desc with
          requested := true, label := some (label.getD "?"), isOut := out }) := by
  rw [gpiodRequest]
  by_cases hmodule : c.tryModuleGet = true
  · rw [if_pos hmodule]
    rcases g.moduleGet.gpiodRequestCommit_cases c label n with
      ⟨hneg, d', hd', hdev⟩ | ⟨hpos, hfree, out, hdev⟩
    · rw [if_pos hneg, hdev]
      exact Or.inl ⟨hneg, d', hd', modulePut_moduleGet n d' g⟩
    · rw [if_neg (not_lt.mpr hpos), hdev]
      exact Or.inr ⟨hpos, hfree, out, rfl⟩
  · rw [if_neg hmodule]
    exact Or.inl ⟨(by decide : -EPROBE_DEFER < 0), _, Or.inl rfl, (g.setDesc_desc n).symm⟩

end GpioDevice

/-! ## What has been taken -/

/-- **The lines `taken` have been requested** since `g₀`, out of those that were asked for.  The
others are as they were, or may as well be. -/
structure Taken (g₀ : GpioDevice) (offsets taken : List Nat) (g : GpioDevice) : Prop where
  nodup : taken.Nodup
  free : ∀ n ∈ taken, (g₀.descs n).desc.requested = false
  held : ∀ n ∈ taken, SameBias { (g₀.descs n).desc with requested := true } (g.descs n).desc
  rest : ∀ n, n ∉ taken → Restored (g₀.descs n).desc (g.descs n).desc
  others : ∀ n, n ∉ offsets ∨ (g₀.descs n).desc.requested = true → g.descs n = g₀.descs n
  moduleRefs : g.moduleRefs = g₀.moduleRefs + taken.length
  deviceRefs : g.deviceRefs = g₀.deviceRefs + taken.length

variable {g g' g₀ : GpioDevice} {offsets taken : List Nat} {n : Nat}

theorem Taken.refl (g : GpioDevice) (offsets : List Nat) : Taken g offsets [] g where
  nodup := List.nodup_nil
  free _ hn := absurd hn List.not_mem_nil
  held _ hn := absurd hn List.not_mem_nil
  rest _ _ := .refl _
  others _ _ := rfl
  moduleRefs := (Int.add_zero _).symm
  deviceRefs := (Int.add_zero _).symm

theorem ne_of_other (hoff : n ∈ offsets) (hfree₀ : (g₀.descs n).desc.requested = false) {m : Nat}
    (hm : m ∉ offsets ∨ (g₀.descs m).desc.requested = true) : m ≠ n := by
  rintro rfl
  rcases hm with hm | hm
  · exact hm hoff
  · rw [hfree₀] at hm
    cases hm

theorem Taken.setLine (h : Taken g₀ offsets taken g) (hn : n ∈ taken) (hoff : n ∈ offsets) {p : Pin}
    (hp : SameBias (g.descs n).desc p.desc) : Taken g₀ offsets taken (g.setLine n p) where
  nodup := h.nodup
  free := h.free
  held m hm := by
    by_cases hmn : m = n
    · subst hmn
      rw [GpioDevice.setLine_self]
      exact (h.held m hm).trans hp
    · rw [GpioDevice.setLine_of_ne hmn]
      exact h.held m hm
  rest m hm := by
    have hmn : m ≠ n := fun heq => hm (heq.symm ▸ hn)
    rw [GpioDevice.setLine_of_ne hmn]
    exact h.rest m hm
  others m hm := by
    rw [GpioDevice.setLine_of_ne (ne_of_other hoff (h.free n hn) hm), h.others m hm]
  moduleRefs := h.moduleRefs
  deviceRefs := h.deviceRefs

theorem Taken.perm {taken' : List Nat} (h : Taken g₀ offsets taken g) (hperm : taken.Perm taken') :
    Taken g₀ offsets taken' g where
  nodup := hperm.nodup_iff.mp h.nodup
  free n hn := h.free n (hperm.mem_iff.mpr hn)
  held n hn := h.held n (hperm.mem_iff.mpr hn)
  rest n hn := h.rest n fun hmem => hn (hperm.mem_iff.mp hmem)
  others := h.others
  moduleRefs := by rw [h.moduleRefs, hperm.length_eq]
  deviceRefs := by rw [h.deviceRefs, hperm.length_eq]

theorem Restored.label_none {d₀ : Desc} (h : Restored d₀ d) (hfree : d₀.requested = false)
    (hblank : Blank d₀) : Restored d₀ { d with label := none } where
  requested := h.requested
  activeLow := h.activeLow
  openDrain := h.openDrain
  openSource := h.openSource
  pullUp := h.pullUp
  pullDown := h.pullDown
  isHogged := h.isHogged
  label := (restored_release (d := d) hfree hblank h.pullUp h.pullDown).label

theorem Taken.free_of_free (h : Taken g₀ offsets taken g)
    (hfree : (g.descs n).desc.requested = false) :
    n ∉ taken ∧ (g₀.descs n).desc.requested = false := by
  have hn : n ∉ taken := fun hn => by
    have hheld : (g.descs n).desc.requested = true := (h.held n hn).requested
    rw [hfree] at hheld
    cases hheld
  exact ⟨hn, by rw [← (h.rest n hn).requested, hfree]⟩

theorem Taken.request_neg (h : Taken g₀ offsets taken g) (htidy : Tidy (g₀.descs n).desc)
    (hoff : n ∈ offsets) {c : Calls} {label : Option String}
    (hneg : (g.gpiodRequest c label n).1 < 0) :
    Taken g₀ offsets taken (g.gpiodRequest c label n).2 := by
  rcases g.gpiodRequest_cases c label n with ⟨-, d', hd', hdev⟩ | ⟨hpos, -⟩
  · rw [hdev]
    rcases hd' with rfl | ⟨hfree, rfl⟩
    · rwa [GpioDevice.setDesc_desc]
    · obtain ⟨hn, hfree₀⟩ := h.free_of_free hfree
      refine { nodup := h.nodup, free := h.free, moduleRefs := h.moduleRefs,
               deviceRefs := h.deviceRefs, held := fun m hm => ?_, rest := fun m hm => ?_,
               others := fun m hm => ?_ }
      · have hmn : m ≠ n := fun heq => hn (heq ▸ hm)
        rw [GpioDevice.setDesc_of_ne hmn]
        exact h.held m hm
      · by_cases hmn : m = n
        · subst hmn
          rw [GpioDevice.setDesc_self]
          exact (h.rest m hm).label_none hfree₀ (htidy hfree₀)
        · rw [GpioDevice.setDesc_of_ne hmn]
          exact h.rest m hm
      · rw [GpioDevice.setDesc_of_ne (ne_of_other hoff hfree₀ hm), h.others m hm]
  · omega

theorem Taken.request_nonneg (h : Taken g₀ offsets taken g) (hoff : n ∈ offsets) {c : Calls}
    {label : Option String} (hpos : 0 ≤ (g.gpiodRequest c label n).1) :
    Taken g₀ offsets (taken ++ [n]) (g.gpiodRequest c label n).2 := by
  rcases g.gpiodRequest_cases c label n with ⟨hneg, -⟩ | ⟨-, hfree, out, hdev⟩
  · omega
  obtain ⟨hn, hfree₀⟩ := h.free_of_free hfree
  have hrest := h.rest n hn
  rw [hdev]
  refine Taken.perm ?_ (List.perm_append_singleton n taken).symm
  refine { nodup := List.nodup_cons.mpr ⟨hn, h.nodup⟩, free := fun m hm => ?_,
           moduleRefs := ?_, deviceRefs := ?_, held := fun m hm => ?_, rest := fun m hm => ?_,
           others := fun m hm => ?_ }
  · rcases List.mem_cons.mp hm with rfl | hm
    · exact hfree₀
    · exact h.free m hm
  · by_cases hmn : m = n
    · subst hmn
      rw [GpioDevice.setDesc_self]
      exact ⟨rfl, hrest.pullUp, hrest.pullDown⟩
    · rw [GpioDevice.setDesc_of_ne hmn]
      exact h.held m ((List.mem_cons.mp hm).resolve_left hmn)
  · rw [List.mem_cons, not_or] at hm
    rw [GpioDevice.setDesc_of_ne hm.1]
    exact h.rest m hm.2
  · rw [GpioDevice.setDesc_of_ne (ne_of_other hoff hfree₀ hm)]
    exact h.others m hm
  · show g.moduleRefs + 1 = g₀.moduleRefs + ((n :: taken).length : Nat)
    rw [h.moduleRefs, List.length_cons]
    omega
  · show g.deviceRefs + 1 = g₀.deviceRefs + ((n :: taken).length : Nat)
    rw [h.deviceRefs, List.length_cons]
    omega

theorem Taken.gpiodFree (h : Taken g₀ offsets (n :: taken) g) (htidy : Tidy (g₀.descs n).desc)
    (hoff : n ∈ offsets) : Taken g₀ offsets taken (g.gpiodFree n) := by
  have hheld := h.held n List.mem_cons_self
  have hfree₀ := h.free n List.mem_cons_self
  have hn : n ∉ taken := (List.nodup_cons.mp h.nodup).1
  have hfreed : g.gpiodFree n = ((g.setDesc n (g.descs n).desc.release).modulePut).putDevice := by
    rw [GpioDevice.gpiodFree, GpioDevice.gpiodFreeCommit, if_pos hheld.requested]
    rfl
  rw [hfreed]
  refine { nodup := (List.nodup_cons.mp h.nodup).2,
           free := fun m hm => h.free m (List.mem_cons_of_mem n hm),
           moduleRefs := ?_, deviceRefs := ?_, held := fun m hm => ?_, rest := fun m hm => ?_,
           others := fun m hm => ?_ }
  · have hmn : m ≠ n := fun heq => hn (heq ▸ hm)
    show SameBias _ ((g.setDesc n (g.descs n).desc.release).descs m).desc
    rw [GpioDevice.setDesc_of_ne hmn]
    exact h.held m (List.mem_cons_of_mem n hm)
  · show Restored _ ((g.setDesc n (g.descs n).desc.release).descs m).desc
    by_cases hmn : m = n
    · subst hmn
      rw [GpioDevice.setDesc_self]
      exact restored_release hfree₀ (htidy hfree₀) hheld.pullUp hheld.pullDown
    · rw [GpioDevice.setDesc_of_ne hmn]
      exact h.rest m fun hmem => (List.mem_cons.mp hmem).elim hmn hm
  · show (g.setDesc n (g.descs n).desc.release).descs m = _
    rw [GpioDevice.setDesc_of_ne (ne_of_other hoff hfree₀ hm), h.others m hm]
  · show g.moduleRefs - 1 = g₀.moduleRefs + (taken.length : Nat)
    rw [h.moduleRefs, List.length_cons]
    omega
  · show g.deviceRefs - 1 = g₀.deviceRefs + (taken.length : Nat)
    rw [h.deviceRefs, List.length_cons]
    omega

/-! ## The loops -/

theorem Taken.freeLines (h : Taken g₀ offsets taken g) (htidy : ∀ n, Tidy (g₀.descs n).desc)
    (hoff : ∀ n ∈ taken, n ∈ offsets) : Taken g₀ offsets [] (g.freeLines taken) := by
  induction taken generalizing g with
  | nil => exact h
  | cons n taken ih =>
    exact ih (h.gpiodFree (htidy n) (hoff n List.mem_cons_self))
      fun m hm => hoff m (List.mem_cons_of_mem n hm)

theorem mem_requestLines {lflags : BitVec 32} {label : Option String} {calls : Nat → Calls}
    {entries : List (BitVec 32 × BitVec 8)} {i : Nat}
    (hn : n ∈ (g.requestLines lflags label calls i entries).2.1) :
    n ∈ entries.map fun e => e.1.toNat := by
  induction entries generalizing g i with
  | nil => cases hn
  | cons e entries ih =>
    rw [List.map_cons]
    rw [GpioDevice.requestLines] at hn
    split at hn
    · cases hn
    dsimp only at hn
    split at hn
    · cases hn
    split at hn
    · rw [List.mem_singleton] at hn
      exact hn ▸ List.mem_cons_self
    · rcases List.mem_cons.mp hn with rfl | hn
      · exact List.mem_cons_self
      · exact List.mem_cons_of_mem _ (ih hn)

/-- **The loop that requests the lines** has taken those that it adds to the handle, if no driver
answers a request with a positive number. -/
theorem Taken.requestLines (h : Taken g₀ offsets taken g) (lflags : BitVec 32)
    (label : Option String) (calls : Nat → Calls) (i : Nat)
    (entries : List (BitVec 32 × BitVec 8)) (htidy : ∀ n, Tidy (g₀.descs n).desc)
    (hoff : ∀ e ∈ entries, e.1.toNat ∈ offsets)
    (hret : (g.requestLines lflags label calls i entries).1 ≤ 0) :
    Taken g₀ offsets (taken ++ (g.requestLines lflags label calls i entries).2.1)
      (g.requestLines lflags label calls i entries).2.2 := by
  induction entries generalizing g taken i with
  | nil => rwa [GpioDevice.requestLines, List.append_nil]
  | cons e entries ih =>
    obtain ⟨offset, value⟩ := e
    have hmem : offset.toNat ∈ offsets := hoff _ List.mem_cons_self
    rw [GpioDevice.requestLines] at hret ⊢
    by_cases hrange : g.ngpio ≤ offset.toNat
    · rw [if_pos hrange, List.append_nil]
      exact h
    rw [if_neg hrange] at hret ⊢
    dsimp only at hret ⊢
    by_cases hreq : (g.gpiodRequest (calls i) label offset.toNat).1 ≠ 0
    · rw [if_pos hreq] at hret ⊢
      rw [List.append_nil]
      exact h.request_neg (htidy _) hmem (lt_of_le_of_ne hret hreq)
    rw [if_neg hreq] at hret ⊢
    have htaken := h.request_nonneg hmem (not_not.mp hreq).ge
    have hin : offset.toNat ∈ taken ++ [offset.toNat] :=
      List.mem_append_right taken (List.mem_singleton.mpr rfl)
    have hconf := htaken.setLine hin hmem (sameBias_configureLine g.chip (calls i) lflags value
      ((g.gpiodRequest (calls i) label offset.toNat).2.descs offset.toNat))
    split at hret
    case isTrue hfails =>
      rw [if_pos hfails]
      exact hconf
    case isFalse hgoes =>
      rw [if_neg hgoes]
      have hrest := ih hconf (i + 1) (fun e he => hoff e (List.mem_cons_of_mem _ he)) hret
      rw [List.append_assoc] at hrest
      exact hrest

/-- **What a failing request leaves behind**: every line as it was, but for what `Restored` leaves
open, the lines that it had not asked for or that were in use as they were altogether, and the
references. -/
structure Unchanged (offsets : List Nat) (g g' : GpioDevice) : Prop where
  restored : ∀ n, Restored (g.descs n).desc (g'.descs n).desc
  others : ∀ n, n ∉ offsets ∨ (g.descs n).desc.requested = true → g'.descs n = g.descs n
  moduleRefs : g'.moduleRefs = g.moduleRefs
  deviceRefs : g'.deviceRefs = g.deviceRefs

theorem Unchanged.refl (offsets : List Nat) (g : GpioDevice) : Unchanged offsets g g :=
  ⟨fun _ => .refl _, fun _ _ => rfl, rfl, rfl⟩

theorem unchanged_getDevice (offsets : List Nat) (g : GpioDevice) :
    Unchanged offsets g g.getDevice.putDevice :=
  ⟨fun _ => .refl _, fun _ _ => rfl, rfl, Int.add_sub_cancel _ _⟩

theorem Taken.unchanged (h : Taken g.getDevice offsets [] g') :
    Unchanged offsets g g'.putDevice where
  restored n := h.rest n List.not_mem_nil
  others := h.others
  moduleRefs := by
    show g'.moduleRefs = g.moduleRefs
    rw [h.moduleRefs]
    exact Int.add_zero _
  deviceRefs := by
    show g'.deviceRefs - 1 = g.deviceRefs
    rw [h.deviceRefs]
    show g.deviceRefs + 1 + 0 - 1 = g.deviceRefs
    omega

theorem Taken.linehandleRelease (h : Taken g.getDevice offsets taken g')
    (htidy : ∀ n, Tidy (g.descs n).desc) (hoff : ∀ n ∈ taken, n ∈ offsets) :
    Unchanged offsets g (g'.linehandleRelease taken) :=
  (h.freeLines htidy hoff).unchanged

theorem unchanged_linehandleCreate (htidy : ∀ n, Tidy (g.descs n).desc) (handlereq : HandleRequest)
    (c : OpenCalls) (calls : Nat → Calls)
    (hneg : (g.linehandleCreate handlereq c calls).1 < 0) :
    Unchanged handlereq.offsets g (g.linehandleCreate handlereq c calls).2 := by
  rw [GpioDevice.linehandleCreate] at hneg ⊢
  split
  · exact .refl _ _
  split
  · exact .refl _ _
  split
  · exact .refl _ _
  split
  · exact .refl _ _
  split
  · exact unchanged_getDevice _ _
  rename_i hcopy hlines hflags halloc hlabel
  rw [if_neg hcopy, if_neg hlines, if_neg hflags, if_neg halloc, if_neg hlabel] at hneg
  have htaken := (Taken.refl g.getDevice handlereq.offsets).requestLines
    handlereq.flags (labelOf handlereq.consumerLabel) calls 0 handlereq.entries htidy
    (fun e he => List.mem_map_of_mem he)
  have hmem : ∀ n ∈ (g.getDevice.requestLines handlereq.flags (labelOf handlereq.consumerLabel)
      calls 0 handlereq.entries).2.1, n ∈ handlereq.offsets := fun n hn => mem_requestLines hn
  generalize g.getDevice.requestLines handlereq.flags (labelOf handlereq.consumerLabel) calls 0
    handlereq.entries = ret at hneg htaken hmem ⊢
  dsimp only at hneg ⊢
  by_cases hret : ret.1 ≠ 0
  · rw [if_pos hret] at hneg ⊢
    exact (htaken (le_of_lt hneg)).linehandleRelease htidy hmem
  rw [if_neg hret] at hneg ⊢
  by_cases hfile : installFile c.file < 0
  · rw [if_pos hfile]
    exact (htaken (not_not.mp hret).le).linehandleRelease htidy hmem
  · rw [if_neg hfile] at hneg
    exact absurd hneg (lt_irrefl 0)

/-! ## The interrupt of a line -/

/-- **Only the line `n` is changed**, and still requested with its bias, and `refs` references on
the module are added. -/
def Touched (n : Nat) (refs : Int) (g g' : GpioDevice) : Prop :=
  ∃ p, SameBias (g.descs n).desc p.desc ∧
    g' = { g.setLine n p with moduleRefs := g.moduleRefs + refs }

theorem touched_self (n : Nat) (g : GpioDevice) : Touched n 0 g g := by
  refine ⟨g.descs n, .refl _, ?_⟩
  rw [Int.add_zero, GpioDevice.setLine, Function.update_eq_self]

theorem touched_setLine {p : Pin} (hp : SameBias (g.descs n).desc p.desc) :
    Touched n 0 g (g.setLine n p) :=
  ⟨p, hp, by rw [Int.add_zero]; rfl⟩

theorem Touched.trans {a b : Int} {g'' : GpioDevice} (h : Touched n a g g')
    (h' : Touched n b g' g'') : Touched n (a + b) g g'' := by
  obtain ⟨p, hp, rfl⟩ := h
  obtain ⟨p', hp', rfl⟩ := h'
  refine ⟨p', ?_, ?_⟩
  · have hdescs :
        ({ g.setLine n p with moduleRefs := g.moduleRefs + a } : GpioDevice).descs n = p :=
      g.setLine_self n p
    rw [hdescs] at hp'
    exact hp.trans hp'
  · simp [GpioDevice.setLine, Int.add_assoc]

theorem touched_gpiochipReqresIrq (c : Calls) (tryModuleGet : Bool) (n : Nat) (g : GpioDevice) :
    Touched n (if (g.gpiochipReqresIrq c tryModuleGet n).1 = 0 then 1 else 0) g
      (g.gpiochipReqresIrq c tryModuleGet n).2 := by
  rw [GpioDevice.gpiochipReqresIrq]
  cases tryModuleGet with
  | false => exact touched_self n g
  | true =>
    have hlock := sameBias_lockAsIrq g.chip c (g.descs n).desc
    by_cases hret : ((g.descs n).desc.gpiochipLockAsIrq g.chip c).1 = 0
    · simp only [hret, Bool.not_true, Bool.false_eq_true, if_false, ne_eq, not_true, if_true]
      exact ⟨_, hlock, rfl⟩
    · simp only [hret, Bool.not_true, Bool.false_eq_true, if_false, ne_eq, not_false_eq_true,
        if_true, GpioDevice.modulePut_moduleGet]
      exact touched_setLine hlock

theorem touched_gpiochipRelresIrq (n : Nat) (g : GpioDevice) :
    Touched n (-1) g (g.gpiochipRelresIrq n) :=
  ⟨_, sameBias_unlockAsIrq _, rfl⟩

/-- **`request_threaded_irq`** holds a reference on the module if it is granted. -/
theorem touched_requestThreadedIrq (c : Calls) (q : IrqCalls) (n : Nat) (g : GpioDevice) :
    Touched n (if (g.requestThreadedIrq c q n).1 = 0 ∧ q.hooked then 1 else 0) g
      (g.requestThreadedIrq c q n).2 := by
  rw [GpioDevice.requestThreadedIrq]
  by_cases hrefused : q.refused = 0
  swap
  · simpa [hrefused] using touched_self n g
  by_cases hhooked : q.hooked = true
  swap
  · simpa [hrefused, hhooked] using touched_self n g
  have hres := touched_gpiochipReqresIrq c q.tryModuleGet n g
  by_cases hret : (g.gpiochipReqresIrq c q.tryModuleGet n).1 = 0
  swap
  · simpa [hrefused, hhooked, hret] using hres
  rw [if_pos hret] at hres
  by_cases hsetup : q.setup = 0
  · simpa [hrefused, hhooked, hret, hsetup] using hres
  · have hrel := hres.trans (touched_gpiochipRelresIrq n _)
    simpa [hrefused, hhooked, hret, hsetup] using hrel

theorem touched_freeIrq (q : IrqCalls) (n : Nat) (g : GpioDevice) :
    Touched n (if q.hooked then -1 else 0) g (g.freeIrq q n) := by
  rw [GpioDevice.freeIrq]
  by_cases hhooked : q.hooked = true
  · simpa [hhooked] using touched_gpiochipRelresIrq n g
  · simpa [hhooked] using touched_self n g

/-- **The line of an event** keeps its owner and its bias, and no reference is left if it cannot be
armed. -/
theorem touched_armLine (lflags : BitVec 32) (c : Calls) (q : IrqCalls) (file : FileCalls) (n : Nat)
    (g : GpioDevice) :
    Touched n (if (g.armLine lflags c q file n).1 = 0 ∧ q.hooked then 1 else 0) g
      (g.armLine lflags c q file n).2 := by
  have hline : Touched n 0 g (g.setLine n (Pin.gpiodDirectionInput g.chip c
      { g.descs n with desc := { (g.descs n).desc with
        activeLow := (g.descs n).desc.activeLow ||
          has lflags GPIOHANDLE_REQUEST_ACTIVE_LOW } }).2) := by
    have hinput := sameBias_of_onlyDirection
      (Desc.onlyDirection_gpiodDirectionInput c { (g.descs n).desc with
        activeLow := (g.descs n).desc.activeLow ||
          has lflags GPIOHANDLE_REQUEST_ACTIVE_LOW } (some g.chip))
    exact touched_setLine ⟨hinput.requested, hinput.pullUp, hinput.pullDown⟩
  rw [GpioDevice.armLine]
  dsimp only
  generalize Pin.gpiodDirectionInput g.chip c _ = input at hline ⊢
  have hirq := hline.trans (touched_requestThreadedIrq c q n (g.setLine n input.2))
  generalize (GpioDevice.requestThreadedIrq c q n (g.setLine n input.2)) = irq at hirq ⊢
  by_cases hinput : input.1 = 0
  swap
  · simpa [hinput] using hline
  by_cases hirqno : gpiodToIrq (some (GpioDevice.setLine n input.2 g).chip) c ≤ 0
  · simpa [hinput, hirqno, ENODEV] using hline
  by_cases hirq0 : irq.1 = 0
  swap
  · simpa [hinput, hirqno, hirq0] using hirq
  by_cases hfile : installFile file < 0
  · have hfree := hirq.trans (touched_freeIrq q n irq.2)
    cases hhooked : q.hooked <;>
      simpa [hinput, hirqno, hirq0, hfile, hhooked, hfile.ne] using hfree
  · simpa [hinput, hirqno, hirq0, hfile] using hirq

theorem Taken.touched (h : Taken g₀ offsets taken g) (hn : n ∈ taken) (hoff : n ∈ offsets)
    (htouched : Touched n 0 g g') : Taken g₀ offsets taken g' := by
  obtain ⟨p, hp, rfl⟩ := htouched
  rw [Int.add_zero]
  exact h.setLine hn hoff hp

theorem unchanged_lineeventCreate (htidy : ∀ n, Tidy (g.descs n).desc) (eventreq : EventRequest)
    (c : OpenCalls) (line : Calls) (q : IrqCalls)
    (hneg : (g.lineeventCreate eventreq c line q).1 < 0) :
    Unchanged [eventreq.lineoffset.toNat] g (g.lineeventCreate eventreq c line q).2 := by
  have hoff : eventreq.lineoffset.toNat ∈ [eventreq.lineoffset.toNat] := List.mem_cons_self
  have hstart := Taken.refl g.getDevice [eventreq.lineoffset.toNat]
  rw [GpioDevice.lineeventCreate] at hneg ⊢
  split
  · exact .refl _ _
  split
  · exact .refl _ _
  split
  · exact unchanged_getDevice _ _
  split
  · exact unchanged_getDevice _ _
  split
  · exact unchanged_getDevice _ _
  rename_i hcopy halloc hlabel hrange hflags
  rw [if_neg hcopy, if_neg halloc, if_neg hlabel, if_neg hrange, if_neg hflags] at hneg
  dsimp only at hneg ⊢
  by_cases hret : (g.getDevice.gpiodRequest line (labelOf eventreq.consumerLabel)
      eventreq.lineoffset.toNat).1 ≠ 0
  · rw [if_pos hret] at hneg ⊢
    exact (hstart.request_neg (htidy _) hoff hneg).unchanged
  rw [if_neg hret] at hneg ⊢
  have htaken := hstart.request_nonneg hoff (not_not.mp hret).ge
  have harmed := touched_armLine eventreq.handleflags line q c.file eventreq.lineoffset.toNat
    (g.getDevice.gpiodRequest line (labelOf eventreq.consumerLabel) eventreq.lineoffset.toNat).2
  generalize GpioDevice.armLine eventreq.handleflags line q c.file eventreq.lineoffset.toNat _ =
    armed at harmed hneg ⊢
  by_cases harm : armed.1 ≠ 0
  · rw [if_pos harm]
    rw [if_neg fun h => harm h.1] at harmed
    exact ((htaken.touched List.mem_cons_self hoff harmed).gpiodFree (htidy _) hoff).unchanged
  · rw [if_neg harm] at hneg
    exact absurd hneg (by omega)

end RealtekIpcam.Gpiolib.LineRequests
