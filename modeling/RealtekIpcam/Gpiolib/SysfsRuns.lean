import RealtekIpcam.Gpiolib.SysfsLifecycle

/-!
# Runs of writes to the GPIO files

A sequence of writes to `export`, `unexport`, `edge`, `direction` and `active_low` and of chips that
go, over any number of devices and lines, with any call failing anywhere.  Some lines may be in the
hands of drivers, and may have class devices of their own, from the start.

`sound_iff`: such a sequence is sound unless a step of it is one of the three that lose something.
-/

namespace RealtekIpcam.Gpiolib.Sysfs

open Runs

namespace State

variable {κ ι : Type*} [DecidableEq κ] [DecidableEq ι] (kstrtol : String → Kstrtol)
  (L : Layout κ ι)

/-! ## What is to hold -/

/-- User space holds no line yet, and no edge is chosen. -/
structure Start (s : State κ ι) : Prop where
  device : ∀ i, (s.lines i).desc.exported = (s.lines i).device.isSome
  requested : ∀ i, (s.lines i).desc.exported = true → (s.lines i).desc.requested = true
  sysfs : ∀ i, (s.lines i).desc.sysfs = false
  idle : ∀ i dev, (s.lines i).device = some dev → dev.irqFlags = 0#8
  held : ∀ i, (s.lines i).held = Held.none

/-- **Between two operations**: a line that was requested since the start, and that is by `export`,
has both flags; and the interrupt of every line is in order. -/
structure Consistent (s₀ s : State κ ι) : Prop where
  exported : ∀ i, (s.lines i).desc.requested = true → (s₀.lines i).desc.requested = false →
    (s.lines i).desc.exported = true ∧ (s.lines i).desc.sysfs = true
  served : ∀ i, (s.lines i).Served

/-- What a failure of an event should leave: a free line is free after an `export`, and the edge and
the polarity are what they were after a write to `edge` or `active_low`. -/
def Unharmed (s t : State κ ι) : Event ι κ → Prop
  | .exportStore buf gpioToDesc _ => ∀ gpio i, kstrtol buf = .ok gpio →
      gpioToDesc (Words.u32 gpio) = some i → (s.lines i).desc.requested = false →
        (t.lines i).desc.Free
  | .edgeStore i _ _ | .activeLowStore i _ _ => (t.lines i).edgeConfig = (s.lines i).edgeConfig
  | _ => True

/-- An event that returns an error leaves everything as it should. -/
def FailsClean (s : State κ ι) (e : Event ι κ) : Prop :=
  ∀ ret t, s.perform kstrtol L e = some (ret, t) → ret < 0 → Unharmed kstrtol s t e

/-- **A sequence of operations is sound**: the state is consistent between any two of them, and each
of them that fails leaves what it should. -/
structure Sound (s₀ : State κ ι) (es : List (Event ι κ)) : Prop where
  consistent : ∀ es₁ es₂ s, es = es₁ ++ es₂ → exec (step kstrtol L) s₀ es₁ = some s →
    s₀.Consistent s
  clean : Along (step kstrtol L) (fun s e => s.FailsClean kstrtol L e) s₀ es

/-- The three writes that lose something: an `export` whose line does not take the persistence
setting, and a write to `edge` or `active_low` that would need an interrupt again that it cannot
have. -/
def Lost (s : State κ ι) : Event ι κ → Prop
  | .exportStore buf gpioToDesc c => ∃ gpio i, kstrtol buf = .ok gpio ∧
      gpioToDesc (Words.u32 gpio) = some i ∧ (s.lines i).ExportLost (s.gdevOf L i) c
  | .edgeStore i buf c => ∃ n, (s.lines i).node = some n ∧ n.dev.edge = true ∧
      n.EdgeLost (s.gdevOf L i).chip c buf
  | .activeLowStore i buf c => ∃ n, (s.lines i).node = some n ∧
      n.PolarityLost kstrtol (s.gdevOf L i).chip c buf
  | _ => False

/-! ## The invariant -/

/-- **The invariant of the system.**  A device that takes no more exports has no line in the hands
of user space. -/
structure Inv (s₀ s : State κ ι) : Prop where
  lines : ∀ i, (s.lines i).Inv (s₀.lines i).desc.requested (s.gdevOf L i).chip
  closed : ∀ i, (s.gdevOf L i).mockdev = false → (s.lines i).desc.sysfs = false

variable {kstrtol L} {s₀ s t : State κ ι} {i : ι} {k : κ} {ret : Int}

omit [DecidableEq κ] [DecidableEq ι] in
theorem Start.inv (h : s₀.Start) : Inv L s₀ s₀ where
  lines i :=
    { device := h.device i
      good := fun dev hdev => Node.Idle.good ⟨h.idle i dev hdev, h.held i⟩
      idle := fun _ => h.held i
      requested := h.requested i
      sysfs := fun hs => by rw [h.sysfs i] at hs; cases hs
      ours := fun hr ht => by rw [hr] at ht; cases ht
      held := fun _ ht => ht }
  closed i _ := h.sysfs i

omit [DecidableEq κ] [DecidableEq ι] in
theorem Inv.consistent (h : Inv L s₀ s) : s₀.Consistent s where
  exported i hr ht :=
    ⟨((h.lines i).sysfs ((h.lines i).ours hr ht)).1, (h.lines i).ours hr ht⟩
  served i := (h.lines i).toSane.served

omit [DecidableEq κ] in
@[simp] theorem setLine_lines_self (s : State κ ι) (i : ι) (l : Line) :
    (s.setLine i l).lines i = l := by
  simp [State.setLine]

omit [DecidableEq κ] in
theorem setLine_lines_of_ne (s : State κ ι) {i j : ι} (h : j ≠ i) (l : Line) :
    (s.setLine i l).lines j = s.lines j := by
  simp [State.setLine, h]

omit [DecidableEq κ] in
theorem Inv.setLine (h : Inv L s₀ s) {l : Line}
    (hl : l.Inv (s₀.lines i).desc.requested (s.gdevOf L i).chip)
    (hclosed : (s.gdevOf L i).mockdev = false → l.desc.sysfs = false) :
    Inv L s₀ (s.setLine i l) := by
  constructor
  · intro j
    by_cases hij : j = i
    · subst hij
      rwa [setLine_lines_self]
    · rw [setLine_lines_of_ne s hij]
      exact h.lines j
  · intro j
    by_cases hij : j = i
    · subst hij
      rwa [setLine_lines_self]
    · rw [setLine_lines_of_ne s hij]
      exact h.closed j

/-! ## A chip goes -/

section Loop

variable {free : Option Chip → Line → Option Line} {is : List ι}

omit [DecidableEq κ] in
theorem forLines_gdevs (h : forLines L free is s = some t) : t.gdevs = s.gdevs := by
  induction is generalizing s with
  | nil => exact congrArg State.gdevs (Option.some.inj h).symm
  | cons i is ih =>
    obtain ⟨l, -, hrest⟩ := Option.bind_eq_some_iff.mp h
    exact (ih hrest).trans rfl

omit [DecidableEq κ] in
/-- **The loop over the lines.**  What the body keeps of each line, the loop keeps. -/
theorem forLines_forall {P : ι → Line → Prop}
    (hfree : ∀ i ∈ is, ∀ l l', P i l → free (s.gdevOf L i).chip l = some l' → P i l')
    (h : forLines L free is s = some t) (hs : ∀ i, P i (s.lines i)) : ∀ i, P i (t.lines i) := by
  induction is generalizing s with
  | nil =>
    obtain rfl := Option.some.inj h
    exact hs
  | cons i is ih =>
    obtain ⟨l, hl, hrest⟩ := Option.bind_eq_some_iff.mp h
    refine ih (s := s.setLine i l) (fun j hj => hfree j (List.mem_cons_of_mem i hj)) hrest
      fun j => ?_
    by_cases hij : j = i
    · subst hij
      rw [setLine_lines_self]
      exact hfree j List.mem_cons_self _ l (hs j) hl
    · rw [setLine_lines_of_ne s hij]
      exact hs j

omit [DecidableEq κ] in
theorem forLines_of_mem {P Q : ι → Line → Prop}
    (hP : ∀ i ∈ is, ∀ l l', P i l → free (s.gdevOf L i).chip l = some l' → P i l')
    (hQ : ∀ i ∈ is, ∀ l l', P i l → free (s.gdevOf L i).chip l = some l' → Q i l')
    (h : forLines L free is s = some t) (hs : ∀ i, P i (s.lines i)) :
    ∀ i ∈ is, Q i (t.lines i) := by
  induction is generalizing s with
  | nil =>
    intro i hi
    cases hi
  | cons i is ih =>
    obtain ⟨l, hl, hrest⟩ := Option.bind_eq_some_iff.mp h
    have hP' : ∀ j ∈ is, ∀ l₁ l₂, P j l₁ →
        free ((s.setLine i l).gdevOf L j).chip l₁ = some l₂ → P j l₂ :=
      fun j hj => hP j (List.mem_cons_of_mem i hj)
    have hQ' : ∀ j ∈ is, ∀ l₁ l₂, P j l₁ →
        free ((s.setLine i l).gdevOf L j).chip l₁ = some l₂ → Q j l₂ :=
      fun j hj => hQ j (List.mem_cons_of_mem i hj)
    have hs' : ∀ j, P j ((s.setLine i l).lines j) := by
      intro j
      by_cases hij : j = i
      · subst hij
        rw [setLine_lines_self]
        exact hP j List.mem_cons_self _ l (hs j) hl
      · rw [setLine_lines_of_ne s hij]
        exact hs j
    intro j hj
    rcases List.mem_cons.mp hj with rfl | hj
    · -- the rest of the loop may come to the same line again, and brings it about again
      have hboth : ∀ i ∈ is, ∀ l₁ l₂, P i l₁ ∧ (i = j → Q i l₁) →
          free ((s.setLine j l).gdevOf L i).chip l₁ = some l₂ → P i l₂ ∧ (i = j → Q i l₂) :=
        fun i hi l₁ l₂ h₁ h₂ => ⟨hP' i hi l₁ l₂ h₁.1 h₂, fun _ => hQ' i hi l₁ l₂ h₁.1 h₂⟩
      refine (forLines_forall (P := fun i l => P i l ∧ (i = j → Q i l)) hboth hrest
        (fun i => ⟨hs' i, fun hij => ?_⟩) j).2 rfl
      subst hij
      rw [setLine_lines_self]
      exact hQ i List.mem_cons_self _ l (hs i) hl
    · exact ih (s := s.setLine i l) hP' hQ' hrest hs' j hj

end Loop

omit [DecidableEq ι] in
theorem setGdev_gdevOf (s : State κ ι) (k : κ) (gdev : Gdev) (i : ι) :
    (s.setGdev k gdev).gdevOf L i = if L.gdev i = k then gdev else s.gdevOf L i := by
  show Function.update s.gdevs k gdev (L.gdev i) = _
  rw [Function.update_apply]
  rfl

/-- **`gpiochip_sysfs_unregister`** takes all lines of the device from user space. -/
theorem Inv.gpiochipSysfsUnregister (h : Inv L s₀ s)
    (hrun : s.gpiochipSysfsUnregister L k = some t) :
    Inv L s₀ t ∧ (∀ i, L.gdev i = k → (t.lines i).desc.sysfs = false) ∧
      (t.gdevs k).chip = (s.gdevs k).chip := by
  rw [State.gpiochipSysfsUnregister] at hrun
  by_cases hmock : (!(s.gdevs k).mockdev) = true
  · rw [if_pos hmock, Option.some_inj] at hrun
    subst hrun
    rw [Bool.not_eq_true'] at hmock
    exact ⟨h, fun i hi => h.closed i (by rw [gdevOf, hi, hmock]), rfl⟩
  rw [if_neg hmock] at hrun
  cases hchip : (s.gdevs k).chip with
  | none =>
    rw [hchip] at hrun
    cases hrun
  | some chip =>
    simp only [hchip] at hrun
    have hsame : ∀ i, ((s.setGdev k ⟨some chip, false⟩).gdevOf L i).chip = (s.gdevOf L i).chip := by
      intro i
      rw [setGdev_gdevOf]
      by_cases hi : L.gdev i = k
      · rw [if_pos hi, gdevOf, hi, hchip]
      · rw [if_neg hi]
    have hbody : ∀ i ∈ L.descs k, ∀ l l' : Line,
        l.Inv (s₀.lines i).desc.requested (s.gdevOf L i).chip →
          l.freeSysfs ((s.setGdev k ⟨some chip, false⟩).gdevOf L i).chip = some l' →
            l'.Inv (s₀.lines i).desc.requested (s.gdevOf L i).chip ∧ l'.desc.sysfs = false := by
      intro i _ l l' hl hl'
      rw [hsame] at hl'
      exact hl.freeSysfs hl'
    have hgdevs := forLines_gdevs hrun
    have hgdev : ∀ i, t.gdevOf L i = (s.setGdev k ⟨some chip, false⟩).gdevOf L i :=
      fun i => congrFun hgdevs (L.gdev i)
    have hfreed : ∀ i, L.gdev i = k → (t.lines i).desc.sysfs = false := fun i hi =>
      forLines_of_mem (P := fun i l => l.Inv (s₀.lines i).desc.requested (s.gdevOf L i).chip)
        (Q := fun _ l => l.desc.sysfs = false) (fun i hi l l' hl hl' => (hbody i hi l l' hl hl').1)
        (fun i hi l l' hl hl' => (hbody i hi l l' hl hl').2) hrun h.lines i
        ((L.mem_descs k i).mpr hi)
    have hlines := forLines_forall
      (P := fun i l => l.Inv (s₀.lines i).desc.requested (s.gdevOf L i).chip ∧
        ((s.gdevOf L i).mockdev = false → l.desc.sysfs = false))
      (fun i hi l l' hl hl' =>
        ⟨(hbody i hi l l' hl.1 hl').1, fun _ => (hbody i hi l l' hl.1 hl').2⟩)
      hrun fun i => ⟨h.lines i, h.closed i⟩
    refine ⟨⟨fun i => ?_, fun i hi => ?_⟩, hfreed, ?_⟩
    · rw [hgdev, hsame]
      exact (hlines i).1
    · by_cases hik : L.gdev i = k
      · exact hfreed i hik
      · rw [hgdev, setGdev_gdevOf, if_neg hik] at hi
        exact (hlines i).2 hi
    · rw [hgdevs]
      exact congrArg Gdev.chip (Function.update_self k _ s.gdevs)

theorem chipGone {theirs : Bool} {chip : Option Chip} {l : Line} (h : l.Inv theirs chip)
    (hsysfs : l.desc.sysfs = false) : l.Inv theirs none where
  toSane := h.toSane
  requested := h.requested
  sysfs hs := by rw [hsysfs] at hs; cases hs
  ours := h.ours
  held hc := by cases hc

theorem Inv.gpiochipRemove (h : Inv L s₀ s) (hrun : s.gpiochipRemove L k = some t) :
    Inv L s₀ t := by
  cases hchip : (s.gdevs k).chip with
  | none =>
    rw [State.gpiochipRemove, hchip] at hrun
    cases hrun
  | some chip =>
    simp only [State.gpiochipRemove, hchip] at hrun
    obtain ⟨u, hu, hrest⟩ := Option.bind_eq_some_iff.mp hrun
    obtain ⟨v, hv, rfl⟩ := Option.map_eq_some_iff.mp hrest
    obtain ⟨hinv, hfreed, hsame⟩ := h.gpiochipSysfsUnregister hu
    have hbody : ∀ i ∈ L.descs k, ∀ l l' : Line,
        l.Inv (s₀.lines i).desc.requested (if L.gdev i = k then none else (u.gdevOf L i).chip) →
          l.freeHog (u.gdevOf L i).chip = some l' →
            l'.Inv (s₀.lines i).desc.requested
              (if L.gdev i = k then none else (u.gdevOf L i).chip) := by
      intro i hi l l' hl hl'
      have hik := (L.mem_descs k i).mp hi
      have hsome : (u.gdevOf L i).chip.isSome = true := by rw [gdevOf, hik, hsame, hchip]; rfl
      rw [if_pos hik] at hl ⊢
      exact hl.freeHog hsome hl'
    have hlines := forLines_forall
      (P := fun i l => l.Inv (s₀.lines i).desc.requested
          (if L.gdev i = k then none else (u.gdevOf L i).chip) ∧
        (L.gdev i ≠ k → (u.gdevOf L i).mockdev = false → l.desc.sysfs = false))
      (fun i hi l l' hl hl' => ⟨hbody i hi l l' hl.1 hl',
        fun hik => absurd ((L.mem_descs k i).mp hi) hik⟩) hv fun i => by
        refine ⟨?_, fun _ => hinv.closed i⟩
        by_cases hik : L.gdev i = k
        · rw [if_pos hik]
          exact chipGone (hinv.lines i) (hfreed i hik)
        · rw [if_neg hik]
          exact hinv.lines i
    have hgdevs := forLines_gdevs hv
    have hgdev : ∀ i, v.gdevOf L i = u.gdevOf L i := fun i => congrFun hgdevs (L.gdev i)
    constructor
    · intro i
      rw [setGdev_gdevOf, hgdev, apply_ite Gdev.chip]
      exact (hlines i).1
    · intro i hi
      by_cases hik : L.gdev i = k
      · have hgone := (hlines i).1
        rw [if_pos hik] at hgone
        show (v.lines i).desc.sysfs = false
        cases hs : (v.lines i).desc.sysfs with
        | false => rfl
        | true => cases (hgone.sysfs hs).2.2
      · rw [setGdev_gdevOf, if_neg hik, hgdev] at hi
        exact (hlines i).2 hik hi

/-! ## One operation -/

omit [DecidableEq κ] in
theorem onNumber_cases {buf : String} {gpioToDesc : Nat → Option ι}
    {store : ι → Option (Int × Line)}
    (hrun : s.onNumber kstrtol buf gpioToDesc store = some (ret, t)) :
    (t = s ∧ ∀ gpio i, kstrtol buf = .ok gpio → gpioToDesc (Words.u32 gpio) ≠ some i) ∨
      ∃ gpio i l, kstrtol buf = .ok gpio ∧ gpioToDesc (Words.u32 gpio) = some i ∧
        store i = some (ret, l) ∧ t = s.setLine i l := by
  rw [onNumber] at hrun
  cases hparse : kstrtol buf with
  | einval =>
    rw [hparse, Option.some_inj] at hrun
    exact Or.inl ⟨(congrArg Prod.snd hrun).symm, nofun⟩
  | erange =>
    rw [hparse, Option.some_inj] at hrun
    exact Or.inl ⟨(congrArg Prod.snd hrun).symm, nofun⟩
  | ok gpio =>
    simp only [hparse] at hrun
    cases hfind : gpioToDesc (Words.u32 gpio) with
    | none =>
      rw [hfind, Option.some_inj] at hrun
      refine Or.inl ⟨(congrArg Prod.snd hrun).symm, fun gpio' i h h' => ?_⟩
      rw [Kstrtol.ok.injEq] at h
      rw [← h, hfind] at h'
      cases h'
    | some i =>
      simp only [hfind] at hrun
      obtain ⟨⟨ret', l⟩, hstore, hret⟩ := Option.map_eq_some_iff.mp hrun
      obtain ⟨rfl, rfl⟩ := Prod.mk.inj hret
      exact Or.inr ⟨gpio, i, l, rfl, hfind, hstore, rfl⟩

/-- What an operation comes to: it loses something and is caught at it, or all is in order. -/
def Comes (kstrtol : String → Kstrtol) (L : Layout κ ι) (s₀ s : State κ ι) (e : Event ι κ)
    (ret : Int) (t : State κ ι) : Prop :=
  (¬ s.Lost kstrtol L e ∧ Inv L s₀ t ∧ (ret < 0 → Unharmed kstrtol s t e)) ∨
    (s.Lost kstrtol L e ∧ ¬ (s₀.Consistent t ∧ (ret < 0 → Unharmed kstrtol s t e)))

theorem Inv.performExport {buf : String} {gpioToDesc : Nat → Option ι} {c : Calls}
    (h : Inv L s₀ s) (hrun : s.perform kstrtol L (.exportStore buf gpioToDesc c) = some (ret, t)) :
    Comes kstrtol L s₀ s (.exportStore buf gpioToDesc c) ret t := by
  rcases onNumber_cases hrun with ⟨rfl, hno⟩ | ⟨gpio, i, l, hparse, hfind, hstore, rfl⟩
  · exact Or.inl ⟨fun ⟨gpio, i, hp, hf, _⟩ => hno gpio i hp hf, h,
      fun _ gpio i hp hf => absurd hf (hno gpio i hp)⟩
  · have hline : ∀ gpio' j, kstrtol buf = .ok gpio' → gpioToDesc (Words.u32 gpio') = some j →
        j = i := by
      intro gpio' j hp hf
      rw [hparse, Kstrtol.ok.injEq] at hp
      rw [← hp, hfind, Option.some_inj] at hf
      exact hf.symm
    rcases (h.lines i).exportStore hstore with ⟨hlost, htheirs, hreq, hsysfs⟩ | ⟨hnot, hok⟩
    · refine Or.inr ⟨⟨gpio, i, hparse, hfind, hlost⟩, fun ⟨hcons, _⟩ => ?_⟩
      have hboth := hcons.exported i (by rw [setLine_lines_self, hreq]) htheirs
      rw [setLine_lines_self, hsysfs] at hboth
      cases hboth.2
    · refine Or.inl ⟨?_, h.setLine hok.inv fun hmock => ?_, fun hneg gpio' j hp hf hfree => ?_⟩
      · rintro ⟨gpio', j, hp, hf, hlost⟩
        obtain rfl := hline gpio' j hp hf
        exact hnot hlost
      · cases hs : l.desc.sysfs with
        | false => rfl
        | true =>
          rcases hok.mockdev hs with hold | hopen
          · rw [h.closed i hmock] at hold
            cases hold
          · rw [hmock] at hopen
            cases hopen
      · obtain rfl := hline gpio' j hp hf
        rw [setLine_lines_self]
        exact hok.free hneg hfree

theorem Inv.performUnexport {buf : String} {gpioToDesc : Nat → Option ι} (h : Inv L s₀ s)
    (hrun : s.perform kstrtol L (.unexportStore buf gpioToDesc) = some (ret, t)) : Inv L s₀ t := by
  rcases onNumber_cases hrun with ⟨rfl, -⟩ | ⟨gpio, i, l, -, -, hstore, rfl⟩
  · exact h
  · obtain ⟨hinv, hsysfs⟩ := (h.lines i).unexportStore hstore
    refine h.setLine hinv fun hmock => ?_
    cases hs : l.desc.sysfs with
    | false => rfl
    | true => exact (hsysfs hs).symm.trans (h.closed i hmock)

omit [DecidableEq κ] in
theorem Inv.performFile {file : ClassDevice → Bool} {store : Node → Option (Int × Node)}
    {lost : Node → Prop} (h : Inv L s₀ s)
    (hstore : ∀ n ret m, n.Good → store n = some (ret, m) → n.Outcome (lost n) ret m)
    (hrun : ((s.lines i).onFile file store).map (fun ret => (ret.1, s.setLine i ret.2)) =
      some (ret, t)) :
    Inv L s₀ t ∧ ((ret < 0 → (t.lines i).edgeConfig = (s.lines i).edgeConfig) ↔
      ¬ ∃ n, (s.lines i).node = some n ∧ file n.dev = true ∧ lost n) := by
  obtain ⟨⟨ret', l⟩, hfile, hret⟩ := Option.map_eq_some_iff.mp hrun
  obtain ⟨rfl, rfl⟩ := Prod.mk.inj hret
  obtain ⟨hinv, hsysfs, hclean⟩ := (h.lines i).onFile hstore hfile
  refine ⟨h.setLine hinv fun hmock => ?_, ?_⟩
  · cases hs : l.desc.sysfs with
    | false => rfl
    | true => exact (hsysfs hs).symm.trans (h.closed i hmock)
  · rw [setLine_lines_self]
    exact hclean

/-- **Every operation** keeps the invariant, or loses something. -/
theorem Inv.perform {e : Event ι κ} (h : Inv L s₀ s)
    (hrun : s.perform kstrtol L e = some (ret, t)) : Comes kstrtol L s₀ s e ret t := by
  cases e with
  | exportStore buf gpioToDesc c => exact h.performExport hrun
  | unexportStore buf gpioToDesc =>
    exact Or.inl ⟨id, h.performUnexport hrun, fun _ => trivial⟩
  | edgeStore i buf c =>
    obtain ⟨hinv, hclean⟩ := h.performFile (fun n ret m hn => n.edgeStore_outcome hn) hrun
    by_cases hlost : s.Lost kstrtol L (.edgeStore i buf c)
    · exact Or.inr ⟨hlost, fun hok => hclean.mp hok.2 hlost⟩
    · exact Or.inl ⟨hlost, hinv, hclean.mpr hlost⟩
  | directionStore i buf c =>
    have hstore : ∀ n ret m, n.Good →
        (fun n : Node => some ((n.desc.directionStore (s.gdevOf L i).chip c buf).1,
          { n with desc := (n.desc.directionStore (s.gdevOf L i).chip c buf).2 })) n =
            some (ret, m) → n.Outcome False ret m := by
      intro n ret m hn hret
      obtain ⟨rfl, rfl⟩ := Prod.mk.inj (Option.some.inj hret)
      exact Node.directionStore_outcome hn
    exact Or.inl ⟨id, (h.performFile hstore hrun).1, fun _ => trivial⟩
  | activeLowStore i buf c =>
    obtain ⟨hinv, hclean⟩ := h.performFile (fun n ret m hn => n.activeLowStore_outcome hn) hrun
    by_cases hlost : s.Lost kstrtol L (.activeLowStore i buf c)
    · obtain ⟨n, hnode, hn⟩ := hlost
      exact Or.inr ⟨⟨n, hnode, hn⟩, fun hok => hclean.mp hok.2 ⟨n, hnode, rfl, hn⟩⟩
    · exact Or.inl ⟨hlost, hinv, hclean.mpr fun ⟨n, hnode, _, hn⟩ => hlost ⟨n, hnode, hn⟩⟩
  | gpiochipSysfsUnregister k =>
    obtain ⟨u, hu, hret⟩ := Option.map_eq_some_iff.mp hrun
    obtain ⟨-, rfl⟩ := Prod.mk.inj hret
    exact Or.inl ⟨id, (h.gpiochipSysfsUnregister hu).1, fun _ => trivial⟩
  | gpiochipRemove k =>
    obtain ⟨u, hu, hret⟩ := Option.map_eq_some_iff.mp hrun
    obtain ⟨-, rfl⟩ := Prod.mk.inj hret
    exact Or.inl ⟨id, h.gpiochipRemove hu, fun _ => trivial⟩

theorem Lost.exists_run {e : Event ι κ} (h : s.Lost kstrtol L e) :
    ∃ ret t, s.perform kstrtol L e = some (ret, t) := by
  cases e with
  | exportStore buf gpioToDesc c =>
    obtain ⟨gpio, i, hparse, hfind, hlost⟩ := h
    obtain ⟨status, l, hrun⟩ := hlost.exists_run buf
    refine ⟨status, s.setLine i l, ?_⟩
    simp only [State.perform, onNumber, hparse, hfind, hrun, Option.map_some]
  | edgeStore i buf c =>
    obtain ⟨n, hnode, hfile, hlost⟩ := h
    obtain ⟨ret, m, hrun⟩ := hlost.exists_run
    refine ⟨ret, s.setLine i m.line, ?_⟩
    simp only [State.perform, Line.onFile, hnode, hfile, hrun, if_true, Option.map_some]
  | activeLowStore i buf c =>
    obtain ⟨n, hnode, hlost⟩ := h
    obtain ⟨ret, m, hrun⟩ := hlost.exists_run
    refine ⟨ret, s.setLine i m.line, ?_⟩
    simp only [State.perform, Line.onFile, hnode, hrun, if_true, Option.map_some]
  | unexportStore buf gpioToDesc => exact h.elim
  | directionStore i buf c => exact h.elim
  | gpiochipSysfsUnregister k => exact h.elim
  | gpiochipRemove k => exact h.elim

theorem step_eq_some {e : Event ι κ} :
    s.step kstrtol L e = some t ↔ ∃ ret, s.perform kstrtol L e = some (ret, t) := by
  rw [State.step, Option.map_eq_some_iff]
  exact ⟨fun ⟨r, hr, ht⟩ => ⟨r.1, by rw [hr, ← ht]⟩, fun ⟨ret, hr⟩ => ⟨(ret, t), hr, rfl⟩⟩

theorem Inv.step {e : Event ι κ} (h : Inv L s₀ s) (hkeep : ¬ s.Lost kstrtol L e)
    (hstep : s.step kstrtol L e = some t) : Inv L s₀ t := by
  obtain ⟨ret, hrun⟩ := step_eq_some.mp hstep
  rcases h.perform hrun with ⟨-, hinv, -⟩ | ⟨hlost, -⟩
  · exact hinv
  · exact absurd hlost hkeep

/-- **One step**: what it leaves is consistent, and its failure clean, exactly if it loses nothing.
-/
theorem Inv.step_iff {e : Event ι κ} (h : Inv L s₀ s) :
    ¬ s.Lost kstrtol L e ↔
      (∀ t, s.step kstrtol L e = some t → s₀.Consistent t) ∧ s.FailsClean kstrtol L e := by
  constructor
  · intro hkeep
    refine ⟨fun t ht => (h.step hkeep ht).consistent, fun ret t hrun hneg => ?_⟩
    rcases h.perform hrun with ⟨-, -, hclean⟩ | ⟨hlost, -⟩
    · exact hclean hneg
    · exact absurd hlost hkeep
  · rintro ⟨hcons, hclean⟩ hlost
    obtain ⟨ret, t, hrun⟩ := hlost.exists_run
    rcases h.perform hrun with ⟨hkeep, -⟩ | ⟨-, hbad⟩
    · exact hkeep hlost
    · exact hbad ⟨hcons t (step_eq_some.mpr ⟨ret, hrun⟩), hclean ret t hrun⟩

variable (kstrtol L) in
/-- **The life of the lines in sysfs.**  From any state in which user space holds no line, a
sequence of writes and of chips that go is sound, whatever fails in it, if and only if no step of it
is an `export` whose line does not take the persistence setting, or a write to `edge` or
`active_low` that needs an interrupt again that it cannot have. -/
theorem sound_iff (s₀ : State κ ι) (h : s₀.Start) (es : List (Event ι κ)) :
    Sound kstrtol L s₀ es ↔
      Along (State.step kstrtol L) (fun s e => ¬ s.Lost kstrtol L e) s₀ es := by
  have hinv : Inv L s₀ s₀ := h.inv
  have hcongr : Along (State.step kstrtol L) (fun s e => ¬ s.Lost kstrtol L e) s₀ es ↔
      Along (State.step kstrtol L) (fun s e =>
        (∀ t, s.step kstrtol L e = some t → s₀.Consistent t) ∧ s.FailsClean kstrtol L e) s₀ es :=
    Along.congr (P := Inv L s₀) (fun s e t hs hkeep hstep => hs.step hkeep hstep)
      (fun s e hs => hs.step_iff) hinv
  rw [hcongr, ← along_and]
  constructor
  · rintro ⟨hcons, hclean⟩
    exact ⟨(forall_reached_iff.mp hcons).2, hclean⟩
  · rintro ⟨hcons, hclean⟩
    exact ⟨forall_reached_iff.mpr ⟨hinv.consistent, hcons⟩, hclean⟩

/-! ### One line -/

def oneLine : Layout Unit Unit where
  gdev _ := ()
  descs _ := [()]
  mem_descs _ _ := ⟨fun _ => rfl, fun _ => List.mem_singleton.mpr rfl⟩

def freeLine : Line := ⟨freeDesc, none, Held.none⟩

/-- The line in the hands of a driver, which has exported it. -/
def driverLine : Line where
  desc := { freeDesc with requested := true, exported := true, label := some "reset" }
  device := some ⟨0, false, 0#8, true, true⟩
  held := Held.none

def withLine (l : Line) : State Unit Unit := ⟨fun _ => ⟨some plainChip, true⟩, fun _ => l⟩

/-- The numbers that the runs below write. -/
def readNumber (buf : String) : Kstrtol := if buf = "17" then .ok 17 else .einval

/-- A driver's line for which the interrupt core has no room: the first edge fails, and there was
none before it. -/
theorem sound_iff_firstEdge :
    Sound readNumber oneLine (withLine driverLine)
      [.edgeStore () "rising" { granted with requestAnyContextIrq := -EBUSY }] := by
  have hstart : (withLine driverLine).Start := by
    refine ⟨fun _ => rfl, fun _ _ => rfl, fun _ => rfl, fun _ dev hdev => ?_, fun _ => rfl⟩
    obtain rfl := Option.some.inj hdev
    rfl
  refine (sound_iff readNumber oneLine _ hstart _).mpr ⟨?_, fun _ _ => trivial⟩
  rintro ⟨n, hn, -, -, -, hold, -⟩
  obtain rfl := Option.some.inj hn
  exact hold rfl

/-- A line that is exported, armed for the falling edge and then made an output. -/
def armedOutput : List (Event Unit Unit) :=
  [.exportStore "17" (fun _ => some ()) granted, .edgeStore () "falling" granted,
    .directionStore () "out" granted]

def otherEdge : Event Unit Unit := .edgeStore () "rising" { granted with getDirection := 0 }

/-- **The edge is lost**: the line cannot be locked as an interrupt again, since it is an output,
and the interrupt for the falling edge is gone. -/
theorem not_sound :
    ¬ Sound readNumber oneLine (withLine freeLine) (armedOutput ++ [otherEdge]) := by
  intro h
  have hrun : (exec (State.step readNumber oneLine) (withLine freeLine) armedOutput).bind (fun s =>
      (s.perform readNumber oneLine otherEdge).map fun r =>
        (r.1, (s.lines ()).edgeConfig, (r.2.lines ()).edgeConfig)) =
      some (- EIO, (1#8, false, ⟨[⟨40, 0x82#64⟩], 1, 1⟩), (0#8, false, Held.none)) := by
    decide +kernel
  obtain ⟨s, hs, hlast⟩ := Option.bind_eq_some_iff.mp hrun
  obtain ⟨⟨ret, t⟩, hperform, hret⟩ := Option.map_eq_some_iff.mp hlast
  simp only [Prod.mk.injEq] at hret
  have hclean := (h.clean.append.2 s hs).1 ret t hperform (by rw [hret.1]; decide)
  have hsame : (t.lines ()).edgeConfig = (s.lines ()).edgeConfig := hclean
  rw [hret.2.1, hret.2.2] at hsame
  exact absurd hsame (by decide)

end State

end RealtekIpcam.Gpiolib.Sysfs
