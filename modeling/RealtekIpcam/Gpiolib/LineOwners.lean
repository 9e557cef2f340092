import RealtekIpcam.Gpiolib.LineUnwinding

/-!
# The owners of GPIO lines, one after the other

Lines are requested and freed by drivers, by the chip itself and for user space, and are locked as
interrupts whether they are requested or not.  While a line is requested its flags are its owner's.

`tidy_of_run` says that a line without an owner carries no flags of one, after any number of them.
A failing request therefore leaves nothing behind, and a line that is newly requested inherits
nothing: that is `atomic_of_run`.

Three things are outside of it.  The direction is what the hardware was last told, and is not put
back.  The bias and the persistence are set for an owner and never cleared.  And a line that is
locked as an interrupt without being requested loses the label it has from that.
-/

namespace RealtekIpcam.Gpiolib.LineRequests

open Runs Sysfs Directions

/-! ## Events -/

/-- What happens to the lines of a device, with what the calls of it return. -/
inductive Event where
  | request (n : Nat) (label : Option String) (c : Calls)
  | free (n : Nat)
  | requestOwnDesc (n : Nat) (label : Option String) (c : Calls)
  | freeOwnDesc (n : Nat)
  /-- The owner of a line sets its flags and its label in any way. -/
  | change (n : Nat) (p : Pin)
  /-- The direction of a line is changed or read again. -/
  | turn (n : Nat) (out : Bool)
  | lockAsIrq (n : Nat) (c : Calls)
  | unlockAsIrq (n : Nat)
  | linehandle (handlereq : HandleRequest) (c : OpenCalls) (calls : Nat → Calls)
  | linehandleRelease (descs : List Nat)
  | lineevent (eventreq : EventRequest) (c : OpenCalls) (line : Calls) (q : IrqCalls)
  | lineeventRelease (q : IrqCalls) (n : Nat)

/-- An event.  A line has an owner as long as it is requested. -/
def step (g : GpioDevice) : Event → Option GpioDevice
  | .request n label c => some (g.gpiodRequest c label n).2
  | .free n => some (g.gpiodFree n)
  | .requestOwnDesc n label c => some (g.gpiodRequestCommit c label n).2
  | .freeOwnDesc n => some (g.gpiodFreeCommit n).2
  | .change n p =>
    if (g.descs n).desc.requested && p.desc.requested then some (g.setLine n p) else none
  | .turn n out => some (g.setDesc n { (g.descs n).desc with isOut := out })
  | .lockAsIrq n c => some (g.setDesc n ((g.descs n).desc.gpiochipLockAsIrq g.chip c).2)
  | .unlockAsIrq n => some (g.setDesc n (g.descs n).desc.gpiochipUnlockAsIrq)
  | .linehandle handlereq c calls => some (g.linehandleCreate handlereq c calls).2
  | .linehandleRelease descs => some (g.linehandleRelease descs)
  | .lineevent eventreq c line q => some (g.lineeventCreate eventreq c line q).2
  | .lineeventRelease q n => some (g.lineeventRelease q n)

/-- A device as it is registered: nobody has requested a line of it. -/
def registered (chip : Chip) (ngpio : Nat) (out : Nat → Bool) : GpioDevice where
  chip := chip
  ngpio := ngpio
  descs n := ⟨{ freeDesc with isOut := out n }, out n⟩
  moduleRefs := 0
  deviceRefs := 1

/-! ## Nothing is left of an owner -/

variable {g g' : GpioDevice} {n : Nat}

def AllTidy (g : GpioDevice) : Prop := ∀ n, Tidy (g.descs n).desc

theorem AllTidy.setLine (h : AllTidy g) {p : Pin} (hp : Tidy p.desc) : AllTidy (g.setLine n p) := by
  intro m
  by_cases hmn : m = n
  · subst hmn
    rwa [GpioDevice.setLine_self]
  · rw [GpioDevice.setLine_of_ne hmn]
    exact h m

theorem AllTidy.setDesc (h : AllTidy g) {d : Desc} (hd : Tidy d) : AllTidy (g.setDesc n d) :=
  h.setLine hd

theorem AllTidy.touched (h : AllTidy g) {refs : Int} (hreq : (g.descs n).desc.requested = true)
    (htouched : Touched n refs g g') : AllTidy g' := by
  obtain ⟨p, hp, rfl⟩ := htouched
  exact h.setLine (tidy_of_requested (hp.requested.trans hreq))

theorem Tidy.label_none {d : Desc} (h : Tidy d) : Tidy { d with label := none } := by
  intro hfree
  have hblank := h hfree
  exact ⟨hblank.activeLow, hblank.openDrain, hblank.openSource, hblank.isHogged, Or.inl rfl⟩

theorem AllTidy.gpiodRequestCommit (h : AllTidy g) (c : Calls) (label : Option String) (n : Nat) :
    AllTidy (g.gpiodRequestCommit c label n).2 := by
  rcases g.gpiodRequestCommit_cases c label n with ⟨-, d', hd', hdev⟩ | ⟨-, -, out, hdev⟩
  · rw [hdev]
    rcases hd' with rfl | ⟨-, rfl⟩
    · exact h.setDesc (h n)
    · exact h.setDesc (h n).label_none
  · rw [hdev]
    exact h.setDesc (tidy_of_requested rfl)

theorem AllTidy.gpiodRequest (h : AllTidy g) (c : Calls) (label : Option String) (n : Nat) :
    AllTidy (g.gpiodRequest c label n).2 := by
  rcases g.gpiodRequest_cases c label n with ⟨-, d', hd', hdev⟩ | ⟨-, -, out, hdev⟩
  · rw [hdev]
    rcases hd' with rfl | ⟨-, rfl⟩
    · exact h.setDesc (h n)
    · exact h.setDesc (h n).label_none
  · rw [hdev]
    exact AllTidy.setDesc (g := g.moduleGet.getDevice) h (tidy_of_requested rfl)

theorem requested_of_nonneg {c : Calls} {label : Option String}
    (hpos : 0 ≤ (g.gpiodRequest c label n).1) :
    ((g.gpiodRequest c label n).2.descs n).desc.requested = true := by
  rcases g.gpiodRequest_cases c label n with ⟨hneg, -⟩ | ⟨-, -, out, hdev⟩
  · omega
  · rw [hdev, GpioDevice.setDesc_self]

theorem AllTidy.gpiodFreeCommit (h : AllTidy g) (n : Nat) : AllTidy (g.gpiodFreeCommit n).2 := by
  rw [GpioDevice.gpiodFreeCommit]
  split
  · exact h.setDesc (tidy_release _)
  · exact h

theorem AllTidy.gpiodFree (h : AllTidy g) (n : Nat) : AllTidy (g.gpiodFree n) := by
  rw [GpioDevice.gpiodFree]
  split
  · exact h.gpiodFreeCommit n
  · exact h.gpiodFreeCommit n

theorem AllTidy.freeLines (h : AllTidy g) (lines : List Nat) : AllTidy (g.freeLines lines) := by
  induction lines generalizing g with
  | nil => exact h
  | cons n lines ih => exact ih (h.gpiodFree n)

theorem AllTidy.requestLines (h : AllTidy g) (lflags : BitVec 32) (label : Option String)
    (calls : Nat → Calls) (i : Nat) (entries : List (BitVec 32 × BitVec 8)) :
    AllTidy (g.requestLines lflags label calls i entries).2.2 := by
  induction entries generalizing g i with
  | nil => exact h
  | cons e entries ih =>
    obtain ⟨offset, value⟩ := e
    rw [GpioDevice.requestLines]
    split
    · exact h
    have hreq := h.gpiodRequest (calls i) label offset.toNat
    dsimp only
    split
    · exact hreq
    rename_i hret
    have hconf := hreq.touched (requested_of_nonneg (not_not.mp hret).ge)
      (touched_setLine (sameBias_configureLine g.chip (calls i) lflags value _))
    split
    · exact hconf
    · exact ih hconf (i + 1)

theorem AllTidy.linehandleCreate (h : AllTidy g) (handlereq : HandleRequest) (c : OpenCalls)
    (calls : Nat → Calls) : AllTidy (g.linehandleCreate handlereq c calls).2 := by
  have hlines := AllTidy.requestLines (g := g.getDevice) h handlereq.flags
    (labelOf handlereq.consumerLabel) calls 0 handlereq.entries
  rw [GpioDevice.linehandleCreate]
  split
  · exact h
  split
  · exact h
  split
  · exact h
  split
  · exact h
  split
  · exact h
  dsimp only
  split
  · exact hlines.freeLines _
  split
  · exact hlines.freeLines _
  · exact hlines

theorem AllTidy.lineeventCreate (h : AllTidy g) (eventreq : EventRequest) (c : OpenCalls)
    (line : Calls) (q : IrqCalls) : AllTidy (g.lineeventCreate eventreq c line q).2 := by
  have hreq := AllTidy.gpiodRequest (g := g.getDevice) h line (labelOf eventreq.consumerLabel)
    eventreq.lineoffset.toNat
  rw [GpioDevice.lineeventCreate]
  split
  · exact h
  split
  · exact h
  split
  · exact h
  split
  · exact h
  split
  · exact h
  dsimp only
  split
  · exact hreq
  rename_i hret
  have harmed := hreq.touched (requested_of_nonneg (not_not.mp hret).ge)
    (touched_armLine eventreq.handleflags line q c.file _ _)
  split
  · exact harmed.gpiodFree _
  · exact harmed

theorem Tidy.onlyDirection {d d' : Desc} (h : Tidy d) (hdir : Desc.OnlyDirection d d') :
    Tidy d' := by
  obtain ⟨out, rfl⟩ := hdir
  intro hfree
  have hblank := h hfree
  exact ⟨hblank.activeLow, hblank.openDrain, hblank.openSource, hblank.isHogged, hblank.label⟩

theorem Tidy.lockAsIrq {d : Desc} (h : Tidy d) (chip : Chip) (c : Calls) :
    Tidy (d.gpiochipLockAsIrq chip c).2 := by
  have hdir : Tidy (lockDirection chip c d).2 := h.onlyDirection (onlyDirection_lockDirection d)
  rw [Desc.gpiochipLockAsIrq_eq chip c d rfl]
  refine Desc.snd_ite hdir (Desc.snd_ite hdir fun hfree => ?_)
  have hblank := hdir hfree
  refine ⟨hblank.activeLow, hblank.openDrain, hblank.openSource, hblank.isHogged, Or.inr ⟨rfl, ?_⟩⟩
  rcases hblank.label with hnone | ⟨-, hlabel⟩
  · exact congrArg (fun label : Option String => some (label.getD "interrupt")) hnone
  · exact congrArg (fun label : Option String => some (label.getD "interrupt")) hlabel

theorem Tidy.unlockAsIrq {d : Desc} (h : Tidy d) : Tidy d.gpiochipUnlockAsIrq := by
  intro hfree
  have hblank := h hfree
  refine ⟨hblank.activeLow, hblank.openDrain, hblank.openSource, hblank.isHogged, Or.inl ?_⟩
  show (if d.label = some "interrupt" then none else d.label) = none
  rcases hblank.label with hnone | ⟨-, hlabel⟩
  · rw [hnone]
    rfl
  · rw [if_pos hlabel]

theorem AllTidy.lineeventRelease (h : AllTidy g) (q : IrqCalls) (n : Nat) :
    AllTidy (g.lineeventRelease q n) := by
  have hfree : AllTidy (g.freeIrq q n) := by
    rw [GpioDevice.freeIrq]
    split
    · exact h.setDesc ((h n).unlockAsIrq)
    · exact h
  exact hfree.gpiodFree n

/-- Every event leaves the lines without an owner tidy. -/
theorem allTidy_step {e : Event} (h : AllTidy g) (hstep : step g e = some g') : AllTidy g' := by
  cases e with
  | request n label c =>
    obtain rfl := Option.some.inj hstep
    exact h.gpiodRequest c label n
  | free n =>
    obtain rfl := Option.some.inj hstep
    exact h.gpiodFree n
  | requestOwnDesc n label c =>
    obtain rfl := Option.some.inj hstep
    exact h.gpiodRequestCommit c label n
  | freeOwnDesc n =>
    obtain rfl := Option.some.inj hstep
    exact h.gpiodFreeCommit n
  | change n p =>
    rw [step, Option.ite_none_right_eq_some, Bool.and_eq_true, Option.some.injEq] at hstep
    obtain ⟨⟨-, hreq⟩, rfl⟩ := hstep
    exact h.setLine (tidy_of_requested hreq)
  | turn n out =>
    obtain rfl := Option.some.inj hstep
    exact h.setDesc ((h n).onlyDirection ⟨out, rfl⟩)
  | lockAsIrq n c =>
    obtain rfl := Option.some.inj hstep
    exact h.setDesc ((h n).lockAsIrq g.chip c)
  | unlockAsIrq n =>
    obtain rfl := Option.some.inj hstep
    exact h.setDesc (h n).unlockAsIrq
  | linehandle handlereq c calls =>
    obtain rfl := Option.some.inj hstep
    exact h.linehandleCreate handlereq c calls
  | linehandleRelease descs =>
    obtain rfl := Option.some.inj hstep
    exact h.freeLines descs
  | lineevent eventreq c line q =>
    obtain rfl := Option.some.inj hstep
    exact h.lineeventCreate eventreq c line q
  | lineeventRelease q n =>
    obtain rfl := Option.some.inj hstep
    exact h.lineeventRelease q n

theorem tidy_of_run {chip : Chip} {ngpio : Nat} {out : Nat → Bool} {es : List Event}
    (hrun : exec step (registered chip ngpio out) es = some g) : AllTidy g := by
  have hstart : AllTidy (registered chip ngpio out) :=
    fun n _ => ⟨rfl, rfl, rfl, rfl, Or.inl rfl⟩
  exact exec_invariant (C := fun _ _ => True) (fun _ _ _ h _ hstep => allTidy_step h hstep) hstart
    (Along.of_forall fun _ _ => trivial) hrun

/-! ## New owners -/

/-- **A line as a new owner should find it**: with the new label, and no flags of another owner. -/
structure Fresh (label : Option String) (d : Desc) : Prop where
  requested : d.requested = true
  activeLow : d.activeLow = false
  openDrain : d.openDrain = false
  openSource : d.openSource = false
  isHogged : d.isHogged = false
  label : d.label = some (label.getD "?")

theorem Tidy.fresh {d : Desc} (h : Tidy d) (hfree : d.requested = false) (label : Option String)
    (out : Bool) : Fresh label
      { d with requested := true, label := some (label.getD "?"), isOut := out } :=
  have hblank := h hfree
  ⟨rfl, hblank.activeLow, hblank.openDrain, hblank.openSource, hblank.isHogged, rfl⟩

theorem fresh_gpiodRequestCommit (h : AllTidy g) {c : Calls} {label : Option String}
    (hpos : 0 ≤ (g.gpiodRequestCommit c label n).1) :
    Fresh label ((g.gpiodRequestCommit c label n).2.descs n).desc := by
  rcases g.gpiodRequestCommit_cases c label n with ⟨hneg, -⟩ | ⟨-, hfree, out, hdev⟩
  · omega
  · rw [hdev, GpioDevice.setDesc_self]
    exact (h n).fresh hfree label out

theorem fresh_gpiodRequest (h : AllTidy g) {c : Calls} {label : Option String}
    (hpos : 0 ≤ (g.gpiodRequest c label n).1) :
    Fresh label ((g.gpiodRequest c label n).2.descs n).desc := by
  rcases g.gpiodRequest_cases c label n with ⟨hneg, -⟩ | ⟨-, hfree, out, hdev⟩
  · omega
  · rw [hdev, GpioDevice.setDesc_self]
    exact (h n).fresh hfree label out

/-- **Requests of lines leave nothing if they fail, and inherit nothing if they do not**, whatever
happened to the lines before. -/
theorem atomic_of_run {chip : Chip} {ngpio : Nat} {out : Nat → Bool} {es : List Event}
    (hrun : exec step (registered chip ngpio out) es = some g) :
    (∀ handlereq c calls, (g.linehandleCreate handlereq c calls).1 < 0 →
      Unchanged handlereq.offsets g (g.linehandleCreate handlereq c calls).2) ∧
    (∀ eventreq c line q, (g.lineeventCreate eventreq c line q).1 < 0 →
      Unchanged [eventreq.lineoffset.toNat] g (g.lineeventCreate eventreq c line q).2) ∧
    (∀ n label c, 0 ≤ (g.gpiodRequest c label n).1 →
      Fresh label ((g.gpiodRequest c label n).2.descs n).desc) ∧
    (∀ n label c, 0 ≤ (g.gpiodRequestCommit c label n).1 →
      Fresh label ((g.gpiodRequestCommit c label n).2.descs n).desc) := by
  have htidy := tidy_of_run hrun
  exact ⟨fun handlereq c calls => unchanged_linehandleCreate htidy handlereq c calls,
    fun eventreq c line q => unchanged_lineeventCreate htidy eventreq c line q,
    fun _ _ _ hpos => fresh_gpiodRequest htidy hpos,
    fun _ _ _ hpos => fresh_gpiodRequestCommit htidy hpos⟩

/-! ### One line -/

/-- A device with lines that are inputs. -/
def inputs : GpioDevice := registered plainChip 32 fun _ => false

/-- Every call succeeds. -/
def opened : OpenCalls := ⟨true, true, true, ⟨3, 0, true⟩⟩

/-- A handle for the outputs 0 and 0. -/
def sameLineTwice : HandleRequest where
  lineoffsets := Vector.replicate 64 0#32
  flags := GPIOHANDLE_REQUEST_OUTPUT
  defaultValues := Vector.replicate 64 0#8
  consumerLabel := ""
  lines := 2#32

/-- The line 0 pulled up by its owner. -/
def pulledUp : Pin :=
  (((inputs.gpiodRequest granted none 0).2.descs 0).gpiodConfigureFlags plainChip granted
    ⟨false, false, false, false, true, false⟩ ⟨false, false, false, false⟩).2

/-- The line 0 requested and freed leaves a request that fails as it is. -/
theorem atomic_freed :
    ∃ g, exec step inputs [.request 0 none granted, .free 0] = some g ∧
      (g.linehandleCreate sameLineTwice opened fun _ => granted).1 = -EBUSY ∧
      Unchanged sameLineTwice.offsets g
        (g.linehandleCreate sameLineTwice opened fun _ => granted).2 := by
  have hret : (((inputs.gpiodRequest granted none 0).2.gpiodFree 0).linehandleCreate sameLineTwice
      opened fun _ => granted).1 = -EBUSY := by
    decide +kernel
  refine ⟨_, rfl, hret, ?_⟩
  have hrun : exec step inputs [.request 0 none granted, .free 0] =
      some ((inputs.gpiodRequest granted none 0).2.gpiodFree 0) := rfl
  exact (atomic_of_run hrun).1 sameLineTwice opened (fun _ => granted)
    (lt_of_eq_of_lt hret (by decide))

/-- **The direction is not put back, and the bias is inherited.** -/
theorem direction_and_bias_stay :
    ((inputs.descs 0).desc.isOut = false ∧
      (inputs.linehandleCreate sameLineTwice opened fun _ => granted).1 = -EBUSY ∧
      ((inputs.linehandleCreate sameLineTwice opened fun _ => granted).2.descs 0).desc.isOut =
        true) ∧
    (exec step inputs [.request 0 none granted, .change 0 pulledUp, .free 0,
      .request 0 none granted]).map (fun g => ((g.descs 0).desc.requested,
        (g.descs 0).desc.pullUp)) = some (true, true) := by
  decide +kernel

end RealtekIpcam.Gpiolib.LineRequests
