import RealtekIpcam.Udc.PullUp

/-!
# Deactivated functions

The gadget is deactivated as long as some function wants it to be, and `deactivations` counts
these.  `usb_function_deactivate` and `usb_function_activate` change the count under `cdev->lock`
and call the gadget without it, the one before and the other after its change.  So a last
activation that has lowered the count to zero can still be on its way to the gadget while a first
deactivation finds zero, deactivates a gadget that still is deactivated, and counts itself; the
activation then switches on a gadget that a function has deactivated.

Here every section under one holding of the lock is one step, and so is every call of the gadget.
Any number of threads, named by `ι`, make calls for any number of functions, named by `F`.
-/

namespace RealtekIpcam.Composite

open Runs (Along exec)

/-! ## Threads -/

/-- Where a thread is: in no call, or before the next step of one. -/
inductive Pc (F : Type*) where
  | idle
  /-- `usb_function_deactivate`, before `usb_gadget_deactivate`. -/
  | deactivateGadget (f : F)
  /-- `usb_function_deactivate`, before its last section. -/
  | deactivateCount (f : F)
  /-- `usb_function_activate`, before `usb_gadget_activate`. -/
  | activateGadget (f : F)
  /-- `usb_function_activate`, before its last section. -/
  | activateReturn (f : F)

/-- The count, the gadget, the threads, and how often each function has deactivated the gadget
without activating it again. -/
structure Activation (ι F : Type*) where
  deactivations : Nat
  gadget : Udc.GadgetCore
  pc : ι → Pc F
  held : F → Nat

/-- The first section of a call, and every further step of it. -/
inductive ActivationEvent (ι F : Type*) where
  | deactivate (i : ι) (f : F)
  | activate (i : ι) (f : F)
  | advance (i : ι)

variable {ι F : Type*}

namespace Activation

section Steps

variable [DecidableEq ι] [DecidableEq F] (s : Activation ι F)

/-- A thread goes on. -/
def goto (i : ι) (p : Pc F) : Activation ι F := { s with pc := Function.update s.pc i p }

/-- `cdev->deactivations++`. -/
def count (f : F) : Activation ι F :=
  { s with
    deactivations := s.deactivations + 1
    held := Function.update s.held f (s.held f + 1) }

/-- `cdev->deactivations--`. -/
def uncount (f : F) : Activation ι F :=
  { s with
    deactivations := s.deactivations - 1
    held := Function.update s.held f (s.held f - 1) }

/-- The first section of `usb_function_deactivate`. -/
def usbFunctionDeactivate (i : ι) (f : F) : Activation ι F :=
  if s.deactivations = 0 then s.goto i (.deactivateGadget f) else s.count f

/-- The first section of `usb_function_activate`. -/
def usbFunctionActivate (i : ι) (f : F) : Activation ι F :=
  if s.deactivations = 0 then s
  else if s.deactivations - 1 = 0 then (s.uncount f).goto i (.activateGadget f)
  else s.uncount f

/-- The next step of a call.  The operations of the gadget succeed. -/
def advance (i : ι) : Option (Activation ι F) :=
  match s.pc i with
  | .idle => none
  | .deactivateGadget f =>
    match s.gadget.usbGadgetDeactivate with
    | some (0, gadget) => some ({ s with gadget := gadget }.goto i (.deactivateCount f))
    | _ => none
  | .deactivateCount f => some ((s.count f).goto i .idle)
  | .activateGadget f =>
    match s.gadget.usbGadgetActivate with
    | some (0, gadget) => some ({ s with gadget := gadget }.goto i (.activateReturn f))
    | _ => none
  | .activateReturn _ => some (s.goto i .idle)

/-- The steps.  A thread makes one call at a time, and a function activates only after it has
deactivated. -/
def step (s : Activation ι F) : ActivationEvent ι F → Option (Activation ι F)
  | .deactivate i f =>
    match s.pc i with
    | .idle => some (s.usbFunctionDeactivate i f)
    | _ => none
  | .activate i f =>
    match s.pc i with
    | .idle => if s.held f = 0 then none else some (s.usbFunctionActivate i f)
    | _ => none
  | .advance i => s.advance i

end Steps

/-- No function has deactivated the gadget. -/
def start (gadget : Udc.GadgetCore) : Activation ι F where
  deactivations := 0
  gadget := { gadget with deactivated := false }
  pc _ := .idle
  held _ := 0

/-- Some thread is at this place of a call. -/
def At (pc : ι → Pc F) (place : F → Pc F) : Prop := ∃ i f, pc i = place f

/-- What should hold: with no call in progress, the gadget is deactivated just when the count is
positive. -/
def ActiveOk (s : Activation ι F) : Prop :=
  (∀ i, s.pc i = .idle) → (s.gadget.deactivated = true ↔ 0 < s.deactivations)

/-- The steps that do not cross: the gadget is activated while the count is zero and no function is
about to count itself, or while one has still to deactivate the gadget. -/
def Uncrossed (s : Activation ι F) : ActivationEvent ι F → Prop
  | .advance i => ∀ f, s.pc i = .activateGadget f →
      s.deactivations = 0 ∧ ¬ At s.pc .deactivateCount ∨ At s.pc .deactivateGadget
  | _ => True

/-! ## The invariant -/

section Places

variable [DecidableEq ι] {pc : ι → Pc F} {place : F → Pc F} {i : ι} {p : Pc F}

theorem At.update (hi : ∀ f, pc i ≠ place f) (h : At pc place) :
    At (Function.update pc i p) place := by
  obtain ⟨j, f, hj⟩ := h
  refine ⟨j, f, ?_⟩
  rw [Function.update_of_ne ?_, hj]
  rintro rfl
  exact hi f hj

theorem At.of_update (hp : ∀ f, p ≠ place f) (h : At (Function.update pc i p) place) :
    At pc place := by
  obtain ⟨j, f, hj⟩ := h
  refine ⟨j, f, ?_⟩
  rwa [Function.update_of_ne ?_] at hj
  rintro rfl
  rw [Function.update_self] at hj
  exact hp f hj

theorem at_update_self (f : F) : At (Function.update pc i (place f)) place :=
  ⟨i, f, Function.update_self ..⟩

end Places

/-- While a function is counted, or about to be, the gadget is deactivated or about to be; and a
gadget that is deactivated is so for a function that is counted or about to be, or is about to be
activated. -/
structure Tracked (s : Activation ι F) : Prop where
  deactivated : 0 < s.deactivations ∨ At s.pc .deactivateCount →
    s.gadget.deactivated = true ∨ At s.pc .deactivateGadget
  wanted : s.gadget.deactivated = true →
    0 < s.deactivations ∨ At s.pc .deactivateCount ∨ At s.pc .activateGadget

variable {s t : Activation ι F}

theorem Tracked.activeOk (h : Tracked s) : ActiveOk s := by
  intro hidle
  have hnone : ∀ place : F → Pc F, (∀ f, place f ≠ .idle) → ¬ At s.pc place := by
    rintro place hplace ⟨i, f, hi⟩
    exact hplace f (hi.symm.trans (hidle i))
  constructor
  · intro hdea
    rcases h.wanted hdea with hpos | hcount | hact
    · exact hpos
    · exact absurd hcount (hnone _ fun _ => nofun)
    · exact absurd hact (hnone _ fun _ => nofun)
  · intro hpos
    rcases h.deactivated (.inl hpos) with hdea | hgadget
    · exact hdea
    · exact absurd hgadget (hnone _ fun _ => nofun)

theorem tracked_start (gadget : Udc.GadgetCore) :
    Tracked (start gadget : Activation ι F) where
  deactivated := by
    rintro (hpos | ⟨_, _, h⟩)
    · exact absurd hpos (Nat.lt_irrefl 0)
    · exact nomatch h
  wanted h := nomatch h

section Steps

variable [DecidableEq ι] [DecidableEq F]

omit [DecidableEq F] in
theorem Tracked.wanted_update (h : Tracked s) {i : ι} (p : Pc F)
    (hcount : ∀ f, s.pc i ≠ .deactivateCount f) (hact : ∀ f, s.pc i ≠ .activateGadget f)
    (hdea : s.gadget.deactivated = true) :
    0 < s.deactivations ∨ At (Function.update s.pc i p) .deactivateCount ∨
      At (Function.update s.pc i p) .activateGadget := by
  rcases h.wanted hdea with hpos | hat | hat
  · exact .inl hpos
  · exact .inr (.inl (hat.update hcount))
  · exact .inr (.inr (hat.update hact))

theorem Tracked.usbFunctionDeactivate (h : Tracked s) {i : ι} {f : F} (hi : s.pc i = .idle) :
    Tracked (s.usbFunctionDeactivate i f) := by
  unfold Activation.usbFunctionDeactivate
  by_cases hzero : s.deactivations = 0
  · rw [if_pos hzero]
    refine ⟨fun _ => .inr (at_update_self f), h.wanted_update _ ?_ ?_⟩
    · exact fun g hg => nomatch hi.symm.trans hg
    · exact fun g hg => nomatch hi.symm.trans hg
  · rw [if_neg hzero]
    exact ⟨fun _ => h.deactivated (.inl (Nat.pos_of_ne_zero hzero)),
      fun _ => .inl (Nat.succ_pos _)⟩

theorem Tracked.usbFunctionActivate (h : Tracked s) {i : ι} {f : F} (hi : s.pc i = .idle) :
    Tracked (s.usbFunctionActivate i f) := by
  unfold Activation.usbFunctionActivate
  by_cases hzero : s.deactivations = 0
  · rw [if_pos hzero]
    exact h
  rw [if_neg hzero]
  have hdea := h.deactivated (.inl (Nat.pos_of_ne_zero hzero))
  by_cases hlast : s.deactivations - 1 = 0
  · rw [if_pos hlast]
    refine ⟨fun _ => ?_, fun _ => .inr (.inr (at_update_self f))⟩
    rcases hdea with hdea | hgadget
    · exact .inl hdea
    · exact .inr (hgadget.update fun g hg => nomatch hi.symm.trans hg)
  · rw [if_neg hlast]
    exact ⟨fun _ => hdea, fun _ => .inl (Nat.pos_of_ne_zero hlast)⟩

/-- A step that crosses no other keeps track of the count. -/
theorem Tracked.advance (h : Tracked s) {i : ι} (he : Uncrossed s (.advance i))
    (hstep : s.advance i = some t) : Tracked t := by
  unfold Activation.advance at hstep
  cases hi : s.pc i with
  | idle =>
    rw [hi] at hstep
    exact nomatch hstep
  | deactivateGadget f =>
    rw [hi] at hstep
    dsimp only at hstep
    split at hstep
    · next gadget hcall =>
      obtain ⟨⟩ := hstep
      have hdea := (Udc.usbGadgetDeactivate_spec hcall).2.2.1
      exact ⟨fun _ => .inl hdea, fun _ => .inr (.inl (at_update_self f))⟩
    · exact nomatch hstep
  | deactivateCount f =>
    rw [hi] at hstep
    obtain ⟨⟩ := hstep
    refine ⟨fun _ => ?_, fun _ => .inl (Nat.succ_pos _)⟩
    rcases h.deactivated (.inr ⟨i, f, hi⟩) with hdea | hgadget
    · exact .inl hdea
    · exact .inr (hgadget.update fun g hg => nomatch hi.symm.trans hg)
  | activateGadget f =>
    rw [hi] at hstep
    dsimp only at hstep
    split at hstep
    · next gadget hcall =>
      obtain ⟨⟩ := hstep
      obtain ⟨r, hr, -, -, hdea, -⟩ := Udc.usbGadgetActivate_spec s.gadget
      obtain rfl : r = (0, gadget) := Option.some.inj (hr.symm.trans hcall)
      refine ⟨fun hcounted => ?_, fun hon => ?_⟩
      · rcases he f hi with ⟨hzero, hnone⟩ | hgadget
        · rcases hcounted with hpos | hcount
          · exact absurd hzero (Nat.pos_iff_ne_zero.mp hpos)
          · have hbefore : At s.pc .deactivateCount :=
              At.of_update (p := .activateReturn f) (fun _ => nofun) hcount
            exact absurd hbefore hnone
        · exact .inr (hgadget.update fun g hg => nomatch hi.symm.trans hg)
      · exact Bool.noConfusion (hdea.symm.trans hon)
    · exact nomatch hstep
  | activateReturn f =>
    rw [hi] at hstep
    obtain ⟨⟩ := hstep
    refine ⟨fun hcounted => ?_, h.wanted_update _ ?_ ?_⟩
    · have hbefore := h.deactivated
        (hcounted.imp_right (At.of_update (p := .idle) fun _ => nofun))
      exact hbefore.imp_right fun hgadget => hgadget.update fun g hg => nomatch hi.symm.trans hg
    · exact fun g hg => nomatch hi.symm.trans hg
    · exact fun g hg => nomatch hi.symm.trans hg

/-- A step that does not cross another one keeps gadget and count together. -/
theorem Tracked.step (h : Tracked s) {e : ActivationEvent ι F} (he : Uncrossed s e)
    (hstep : s.step e = some t) : Tracked t := by
  cases e with
  | deactivate i f =>
    cases hi : s.pc i with
    | idle =>
      rw [Activation.step, hi] at hstep
      obtain ⟨⟩ := hstep
      exact h.usbFunctionDeactivate hi
    | _ =>
      rw [Activation.step, hi] at hstep
      exact nomatch hstep
  | activate i f =>
    cases hi : s.pc i with
    | idle =>
      rw [Activation.step, hi] at hstep
      obtain ⟨-, ⟨⟩⟩ := Option.ite_none_left_eq_some.mp hstep
      exact h.usbFunctionActivate hi
    | _ =>
      rw [Activation.step, hi] at hstep
      exact nomatch hstep
  | advance i => exact h.advance he hstep

/-- **Activation counting.**  In every state that a run of uncrossed steps reaches with no call in
progress, the gadget is deactivated just when the count is positive. -/
theorem activeOk_of_uncrossed (gadget : Udc.GadgetCore) (es : List (ActivationEvent ι F))
    (huncrossed : Along step Uncrossed (start gadget) es) {s : Activation ι F}
    (hrun : exec step (start gadget) es = some s) : ActiveOk s :=
  (Runs.exec_invariant (fun _ _ _ h he hstep => h.step he hstep) (tracked_start gadget)
    huncrossed hrun).activeOk

end Steps

def idleGadget : Udc.GadgetCore := Udc.addGadgetUdc false

/-- Function 0 deactivates the gadget and activates it again: an uncrossed run. -/
theorem activeOk_inTurn :
    ∃ s : Activation Bool Nat, exec step (start idleGadget)
        [.deactivate false 0, .advance false, .advance false, .activate false 0, .advance false,
          .advance false] = some s ∧
      ActiveOk s := by
  obtain ⟨s, hrun⟩ : ∃ s : Activation Bool Nat, exec step (start idleGadget)
      [.deactivate false 0, .advance false, .advance false, .activate false 0, .advance false,
        .advance false] = some s := ⟨_, rfl⟩
  refine ⟨s, hrun, activeOk_of_uncrossed idleGadget
    [.deactivate false 0, .advance false, .advance false, .activate false 0, .advance false,
      .advance false] ?_ hrun⟩
  refine ⟨trivial, fun s₁ h₁ => ?_⟩
  obtain rfl := Option.some.inj h₁
  refine ⟨nofun, fun s₂ h₂ => ?_⟩
  obtain rfl := Option.some.inj h₂
  refine ⟨nofun, fun s₃ h₃ => ?_⟩
  obtain rfl := Option.some.inj h₃
  refine ⟨trivial, fun s₄ h₄ => ?_⟩
  obtain rfl := Option.some.inj h₄
  refine ⟨fun f _ => .inl ⟨rfl, ?_⟩, fun s₅ h₅ => ?_⟩
  · rintro ⟨j, g, hj⟩
    cases j <;> exact nomatch hj
  · obtain rfl := Option.some.inj h₅
    exact ⟨nofun, fun _ _ => trivial⟩

/-- The thread of function 0 has lowered the count to zero when the thread of function 1 finds
zero.  The gadget is activated last, and function 1 is counted. -/
theorem not_activeOk :
    ∃ s : Activation Bool Nat, exec step (start idleGadget)
        [.deactivate false 0, .advance false, .advance false, .activate false 0,
          .deactivate true 1, .advance true, .advance false, .advance false, .advance true] =
          some s ∧
      (∀ i, s.pc i = .idle) ∧ s.deactivations = 1 ∧ s.gadget.deactivated = false ∧
      ¬ ActiveOk s := by
  have hidle : ∀ {s : Activation Bool Nat}, s.pc false = .idle → s.pc true = .idle →
      ∀ i, s.pc i = .idle := fun hfalse htrue => Bool.rec hfalse htrue
  refine ⟨_, rfl, hidle rfl rfl, rfl, rfl, fun hok => ?_⟩
  exact Bool.noConfusion ((hok (hidle rfl rfl)).mpr Nat.one_pos)

end Activation

end RealtekIpcam.Composite
