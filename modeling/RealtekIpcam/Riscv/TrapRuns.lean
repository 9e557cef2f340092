import RealtekIpcam.Riscv.Entry

/-!
# Nested traps

A handler runs on the kernel stack below the registers that were saved for it.  It may be trapped
itself, at any point and to any depth, as long as there is room.  `Handler` is what may happen from
the entry of a trap to the way out: C code that leaves the saved registers alone, changes of the
saved registers through the pointer that the handler was given, and complete traps.

What is interrupted cannot tell.  Induction on what happens shows that the frame of the handler
holds what it should and that nothing above it changes; so `ret_from_exception` gives back the
registers that were saved, but for the changes that the handler made on purpose.
-/

namespace RealtekIpcam.Riscv

open Function

open Opensbi (SIE SPIE SPP)

/-- A thread with its kernel stack, on which none of its own words lies. -/
structure Thread (L : Layout) where
  task : Word
  lo : Nat
  hi : Nat
  hi_lt : hi < 2 ^ 32
  task_ne : task ≠ 0
  kernelSp_off : ∀ a : Word, lo ≤ a.toNat → a.toNat < hi → a ≠ task + L.kernelSp
  userSp_off : ∀ a : Word, lo ≤ a.toNat → a.toNat < hi → a ≠ task + L.userSp

namespace Thread

variable {L : Layout} (T : Thread L)

/-- The kernel runs for the thread, on its stack below `top`. -/
structure InKernel (h : Hart) (top : Nat) : Prop where
  user : h.user = false
  scratch : h.scratch = 0
  tp : h.x tp = T.task
  le : (h.x sp).toNat ≤ top

/-- User space runs. -/
structure InUser (h : Hart) : Prop where
  user : h.user = true
  scratch : h.scratch = T.task
  kernelSp : h.mem (T.task + L.kernelSp) = BitVec.ofNat 32 T.hi

/-- A trap finds the stack free below `top`. -/
def Ready (h : Hart) (top : Nat) : Prop :=
  T.InUser h ∧ top = T.hi ∨ T.InKernel h T.hi ∧ top = (h.x sp).toNat

/-- C code of a handler whose registers were saved at `base`. -/
structure Code (base : Word) (h h' : Hart) : Prop where
  user : h'.user = h.user
  scratch : h'.scratch = h.scratch
  tp : h'.x tp = h.x tp
  le : (h'.x sp).toNat ≤ base.toNat
  mem : ∀ a, base.toNat ≤ a.toNat → a.toNat < T.hi → h'.mem a = h.mem a

/-- What a handler may change of the saved registers: not the status, and of the kernel neither the
thread nor the stack. -/
def Pokable (c : PtReg → Word) (f : PtReg) : Prop :=
  f ≠ .status ∧ ((c .status).getLsbD SPP = true → f ≠ .x tp ∧ f ≠ .x sp)

/-- Where the registers are saved below `top`. -/
def frameOf (L : Layout) (top : Nat) : Word := BitVec.ofNat 32 top - BitVec.ofNat 32 L.ptSize

/-- What the frame at `base` holds. -/
def content (L : Layout) (h : Hart) (base : Word) : PtReg → Word := fun f => h.mem (place L base f)

/-- What happens in a handler with its registers at `base`, which hold `c` and in the end `d`. -/
inductive Handler : Word → Hart → (PtReg → Word) → Hart → (PtReg → Word) → Prop where
  | done {base h c} : Handler base h c h c
  | code {base h c h' k d} : T.Code base h h' → Handler base h' c k d → Handler base h c k d
  | poke {base h c k d} (f : PtReg) (v : Word) : Pokable c f →
      Handler base (h.store (place L base f) v) (update c f v) k d → Handler base h c k d
  | trap {base h c k' d' h' k d} (cause tval : Word) :
      T.lo + L.ptSize ≤ (h.x sp).toNat →
      Handler (frameOf L (h.x sp).toNat) (handleException L (h.trap cause tval))
        (content L (handleException L (h.trap cause tval)) (frameOf L (h.x sp).toNat)) k' d' →
      k'.x sp = frameOf L (h.x sp).toNat → retFromException L k' = .resumed h' →
      Handler base h' c k d → Handler base h c k d

/-- What a handler keeps. -/
structure Keeps (base : Word) (h : Hart) (c : PtReg → Word) (k : Hart) (d : PtReg → Word) :
    Prop where
  kernel : T.InKernel k base.toNat
  frame : ∀ f, k.mem (place L base f) = d f
  status : d .status = c .status
  nested : (c .status).getLsbD SPP = true →
    d (.x Riscv.tp) = c (.x Riscv.tp) ∧ d (.x sp) = c (.x sp)
  above : ∀ a, base.toNat + L.ptSize ≤ a.toNat → a.toNat < T.hi → k.mem a = h.mem a

/-- What goes on after a trap from `h`, if the frame held `d` in the end. -/
structure Resumed (h h' : Hart) (d : PtReg → Word) (top : Nat) : Prop where
  gpr : ∀ r, r ≠ 0 → h'.x r = d (.x r)
  pc : h'.pc = d .epc
  user : h'.user = h.user
  status : ∀ i < 32, i ≠ SPIE → i ≠ SPP → h'.status.getLsbD i = h.status.getLsbD i
  mem : ∀ a, top ≤ a.toNat → a.toNat < T.hi → h'.mem a = h.mem a
  inUser : h.user = true → T.InUser h'
  scratch : h.user = false → h'.scratch = 0

variable {T} {h k h' : Hart} {c d : PtReg → Word} {base : Word} {top : Nat} {cause tval : Word}

theorem Ready.le (h : T.Ready k top) : top ≤ T.hi := by
  obtain ⟨-, rfl⟩ | ⟨hk, rfl⟩ := h
  · exact Nat.le_refl _
  · exact hk.le

theorem toNat_frameOf (hroom : T.lo + L.ptSize ≤ top) (htop : top ≤ T.hi) :
    (frameOf L top).toNat = top - L.ptSize := by
  have hhi := T.hi_lt
  rw [frameOf, BitVec.toNat_sub, BitVec.toNat_ofNat, BitVec.toNat_ofNat]
  omega

theorem toNat_place_mem (hlo : T.lo ≤ base.toNat) (hhi : base.toNat + L.ptSize ≤ T.hi) (f : PtReg) :
    (place L base f).toNat = base.toNat + L.pt f ∧ T.lo ≤ (place L base f).toNat ∧
      (place L base f).toNat < T.hi := by
  have hlt := T.hi_lt
  have hf := L.pt_lt f
  have hplace := toNat_place (L := L) (by omega : base.toNat + L.ptSize ≤ 2 ^ 32) f
  omega

theorem toNat_place_frameOf (hroom : T.lo + L.ptSize ≤ top) (htop : top ≤ T.hi) (f : PtReg) :
    (place L (frameOf L top) f).toNat = (frameOf L top).toNat + L.pt f ∧
      T.lo ≤ (place L (frameOf L top) f).toNat ∧ (place L (frameOf L top) f).toNat < T.hi := by
  have hframe := toNat_frameOf hroom htop
  exact toNat_place_mem (by omega) (by omega) f

/-! ## The entry and the way out -/

theorem Ready.saved (hready : T.Ready h top) (hroom : T.lo + L.ptSize ≤ top) (cause tval : Word) :
    Saved L (h.trap cause tval) (handleException L (h.trap cause tval)) T.task (frameOf L top) := by
  have hfinds : Finds L (h.trap cause tval) T.task (BitVec.ofNat 32 top) := by
    obtain ⟨hu, rfl⟩ | ⟨hk, rfl⟩ := hready
    · exact .inr ⟨hu.scratch, T.task_ne, hu.kernelSp⟩
    · exact .inl ⟨hk.scratch, hk.tp, (BitVec.ofNat_toNat ..).symm ▸ (BitVec.setWidth_eq _).symm⟩
  refine handleException_saved hfinds rfl fun f => ?_
  obtain ⟨-, hlo, hhi⟩ := toNat_place_frameOf hroom hready.le f
  exact ⟨T.kernelSp_off _ hlo hhi, T.userSp_off _ hlo hhi⟩

theorem Ready.entered (hready : T.Ready h top) (hroom : T.lo + L.ptSize ≤ top)
    (cause tval : Word) :
    T.InKernel (handleException L (h.trap cause tval)) (frameOf L top).toNat ∧
      ∀ a, top ≤ a.toNat → a.toNat < T.hi →
        (handleException L (h.trap cause tval)).mem a = h.mem a := by
  have hsaved := hready.saved hroom cause tval
  have hframe := toNat_frameOf hroom hready.le
  have hle := hready.le
  refine ⟨⟨hsaved.user, hsaved.scratch, hsaved.tp, (hsaved.sp ▸ Nat.le_refl _)⟩, fun a ha hhi => ?_⟩
  refine hsaved.off a ⟨T.kernelSp_off a (by omega) hhi, T.userSp_off a (by omega) hhi, fun f => ?_⟩
  rintro rfl
  have hf := L.pt_lt f
  obtain ⟨hplace, -, -⟩ := toNat_place_frameOf hroom hready.le f
  omega

/-- **The way out** goes by the mode in the saved status. -/
theorem retFromException_resumed (hexit : retFromException L k = .resumed h') :
    ∃ k', h' = restoreAll L k' ∧ k'.x sp = k.x sp ∧
      ((k.mem (place L (k.x sp) .status)).getLsbD SPP = true ∧ k'.mem = k.mem ∧
          k'.scratch = k.scratch ∨
        (k.mem (place L (k.x sp) .status)).getLsbD SPP = false ∧ k'.scratch = k.x tp ∧
          k'.mem = update k.mem (k.x tp + L.kernelSp)
            (k.x sp + BitVec.ofNat 32 L.ptSize)) := by
  have hbit := BitField.and_one_shiftLeft_ne_zero (v := k.mem (place L (k.x sp) .status))
    (show SPP < 32 by decide)
  simp only [retFromException, Hart.set, Hart.store, update_self] at hexit
  split at hexit
  next hspp =>
    exact ⟨_, (Exit.resumed.inj hexit).symm, rfl, .inl ⟨hbit.mp hspp, rfl, rfl⟩⟩
  next hspp =>
    split at hexit
    · cases hexit
    · refine ⟨_, (Exit.resumed.inj hexit).symm, rfl, .inr ⟨?_, rfl, rfl⟩⟩
      exact Bool.eq_false_iff.mpr fun h => hspp (hbit.mpr h)

/-- **A trap resumes what it interrupted**, if its handler keeps what it should. -/
theorem Keeps.resumed (hready : T.Ready h top) (hroom : T.lo + L.ptSize ≤ top)
    (hkeeps : T.Keeps (frameOf L top) (handleException L (h.trap cause tval))
      (content L (handleException L (h.trap cause tval)) (frameOf L top)) k d)
    (hsp : k.x sp = frameOf L top) (hexit : retFromException L k = .resumed h') :
    T.Resumed h h' d top := by
  have hsaved := hready.saved hroom cause tval
  have hframe := toNat_frameOf hroom hready.le
  have hle := hready.le
  obtain ⟨k', rfl, hsp', hmode⟩ := retFromException_resumed hexit
  rw [hsp, hkeeps.frame] at hmode
  -- The saved status is that of the trap.
  have hstatus : d .status = (h.trap cause tval).status := hkeeps.status.trans hsaved.status
  have hbit {i : Nat} (hi : i < 32) : (d .status).getLsbD i = if i = SIE then false
      else if i = SPIE then h.status.getLsbD SIE else if i = SPP then !h.user
      else h.status.getLsbD i := by
    rw [hstatus]
    simp only [Hart.trap, BitField.getLsbD_putBit hi]
  have hspp : (d .status).getLsbD SPP = !h.user := hbit (by decide)
  have hend : frameOf L top + BitVec.ofNat 32 L.ptSize = BitVec.ofNat 32 top := by
    rw [frameOf, BitVec.sub_add_cancel]
  -- The stack is not changed on the way out.
  have hkernelSp (a : Word) (hlo : T.lo ≤ a.toNat) (hhi : a.toNat < T.hi) :
      k'.mem a = k.mem a := by
    obtain ⟨-, hmem, -⟩ | ⟨-, -, hmem⟩ := hmode
    · rw [hmem]
    · rw [hmem, hkeeps.kernel.tp, update_of_ne (T.kernelSp_off a hlo hhi)]
  have hloaded : Loaded L k' (restoreAll L k') d := by
    refine restoreAll_loaded fun f => ?_
    obtain ⟨-, hlo, hhi⟩ := toNat_place_frameOf hroom hready.le f
    rw [hsp', hsp, hkernelSp _ hlo hhi]
    exact hkeeps.frame f
  refine ⟨hloaded.gpr, hloaded.pc, ?_, fun i hi hspie hne => ?_, fun a ha hhi => ?_, fun hu => ?_,
    fun hu => ?_⟩
  · rw [hloaded.user, hspp, Bool.not_not]
  · rw [hloaded.status i hi hspie hne]
    split
    next hsie =>
      rw [hbit (by decide), hsie]
      rfl
    next hsie => rw [hbit hi, if_neg hsie, if_neg hspie, if_neg hne]
  · rw [hloaded.mem, hkernelSp a (by omega) hhi, hkeeps.above a (by omega) hhi]
    exact (hready.entered hroom cause tval).2 a ha hhi
  · obtain ⟨hset, -⟩ | ⟨-, hscratch, hmem⟩ := hmode
    · rw [hspp, hu] at hset
      cases hset
    · obtain ⟨-, rfl⟩ | ⟨hk, -⟩ := hready
      · refine ⟨by rw [hloaded.user, hspp, hu]; rfl, ?_, ?_⟩
        · rw [hloaded.scratch, hscratch, hkeeps.kernel.tp]
        · rw [hloaded.mem, hmem, hkeeps.kernel.tp, update_self, hend]
      · rw [hk.user] at hu
        cases hu
  · obtain ⟨-, -, hscratch⟩ | ⟨hclear, -⟩ := hmode
    · rw [hloaded.scratch, hscratch, hkeeps.kernel.scratch]
    · rw [hspp, hu] at hclear
      cases hclear

theorem Keeps.nested_kernel (hkeeps : T.Keeps base (handleException L (h.trap cause tval))
      (content L (handleException L (h.trap cause tval)) base) k d)
    (hsaved : Saved L (h.trap cause tval) (handleException L (h.trap cause tval)) T.task base)
    (huser : h.user = false) : d (.x tp) = h.x tp ∧ d (.x sp) = h.x sp := by
  have hspp : (content L (handleException L (h.trap cause tval)) base .status).getLsbD SPP =
      true := by
    rw [content, hsaved.status]
    simp only [Hart.trap, BitField.getLsbD_putBit (show SPP < 32 by decide), huser]
    rfl
  obtain ⟨htp, hsp⟩ := hkeeps.nested hspp
  exact ⟨htp.trans (hsaved.gpr tp (by decide)), hsp.trans (hsaved.gpr sp (by decide))⟩

/-! ## What handlers keep -/

/-- **Whatever happens in a handler**, by induction on it. -/
theorem Handler.keeps (hrun : T.Handler base h c k d) (hlo : T.lo ≤ base.toNat)
    (hhi : base.toNat + L.ptSize ≤ T.hi) (hkernel : T.InKernel h base.toNat)
    (hframe : ∀ f, h.mem (place L base f) = c f) : T.Keeps base h c k d := by
  induction hrun with
  | done => exact ⟨hkernel, hframe, rfl, fun _ => ⟨rfl, rfl⟩, fun _ _ _ => rfl⟩
  | code hcode _ ih =>
    have hk : T.InKernel _ _ := ⟨hcode.user.trans hkernel.user,
      hcode.scratch.trans hkernel.scratch, hcode.tp.trans hkernel.tp, hcode.le⟩
    have hkeeps := ih hlo hhi hk fun f => by
      obtain ⟨hplace, -, hend⟩ := toNat_place_mem (T := T) hlo hhi f
      rw [hcode.mem _ (by omega) hend, hframe f]
    exact { hkeeps with
      above := fun a ha hend => (hkeeps.above a ha hend).trans (hcode.mem a (by omega) hend) }
  | @poke base h c k d f v hpoke _ ih =>
    have hkeeps := ih hlo hhi ⟨hkernel.user, hkernel.scratch, hkernel.tp, hkernel.le⟩ fun g => by
      simp only [Hart.store, update_apply, place_inj, hframe]
    have hstatus : update c f v .status = c .status :=
      update_of_ne hpoke.1.symm ..
    refine ⟨hkeeps.kernel, hkeeps.frame, hkeeps.status.trans hstatus, fun hspp => ?_,
      fun a ha hend => (hkeeps.above a ha hend).trans (update_of_ne ?_ ..)⟩
    · obtain ⟨htp, hsp⟩ := hkeeps.nested (hstatus ▸ hspp)
      obtain ⟨hftp, hfsp⟩ := hpoke.2 hspp
      exact ⟨htp.trans (update_of_ne hftp.symm ..),
        hsp.trans (update_of_ne hfsp.symm ..)⟩
    · rintro rfl
      have hf := L.pt_lt f
      obtain ⟨hplace, -⟩ := toNat_place_mem (T := T) hlo hhi f
      omega
  | @trap base h c k' d' h' k d cause tval hroom _ hsp hexit _ ihin ih =>
    have hready : T.Ready h (h.x sp).toNat :=
      .inr ⟨⟨hkernel.user, hkernel.scratch, hkernel.tp, by have := hkernel.le; omega⟩, rfl⟩
    have htop := hkernel.le
    have hbase := toNat_frameOf hroom hready.le
    have hin := ihin (by omega) (by omega) (hready.entered hroom cause tval).1 fun _ => rfl
    have hres := hin.resumed hready hroom hsp hexit
    -- What was interrupted is the kernel, so `tp` and `sp` come back as they were.
    obtain ⟨htp, hspd⟩ := hin.nested_kernel (hready.saved hroom cause tval) hkernel.user
    have htp' : h'.x tp = h.x tp := (hres.gpr tp (by decide)).trans htp
    have hsp' : h'.x sp = h.x sp := (hres.gpr sp (by decide)).trans hspd
    have hkeeps := ih hlo hhi ⟨hres.user.trans hkernel.user, hres.scratch hkernel.user,
        htp'.trans hkernel.tp, hsp' ▸ htop⟩ fun f => by
      obtain ⟨hplace, -, hend⟩ := toNat_place_mem (T := T) hlo hhi f
      rw [hres.mem _ (by omega) hend, hframe f]
    exact { hkeeps with
      above := fun a ha hend => (hkeeps.above a ha hend).trans (hres.mem a (by omega) hend) }

/-- Code that moves its stack pointer. -/
theorem code_sp (h : Hart) {v : Word} (hv : v.toNat ≤ base.toNat) : T.Code base h (h.set sp v) :=
  ⟨rfl, rfl, rfl, hv, fun _ _ _ => rfl⟩

/-- Without work to do the trap returns. -/
theorem exists_resumed (hwork : k.mem (k.x tp + L.flags) &&& L.workMask = 0) :
    ∃ h', retFromException L k = .resumed h' := by
  have htp : tp ≠ s0 := by decide
  simp only [retFromException, Hart.set, Hart.store, update_self,
    update_of_ne htp, hwork, ne_eq, not_true_eq_false, if_false]
  split <;> exact ⟨_, rfl⟩

/-- **Traps are transparent**, nested to any depth: after the way out the registers are those of the
frame, in which the trap saved what it interrupted; the mode, the status but for the two bits that
`sret` sets, and the stack above are as before; and the next trap finds what this one found. -/
theorem trap_transparent (hready : T.Ready h top) (hroom : T.lo + L.ptSize ≤ top)
    (hrun : T.Handler (frameOf L top) (handleException L (h.trap cause tval))
      (content L (handleException L (h.trap cause tval)) (frameOf L top)) k d)
    (hsp : k.x sp = frameOf L top) (hexit : retFromException L k = .resumed h') :
    (∀ r, r ≠ 0 → content L (handleException L (h.trap cause tval)) (frameOf L top) (.x r) =
      h.x r) ∧
      content L (handleException L (h.trap cause tval)) (frameOf L top) .epc = h.pc ∧
      T.Resumed h h' d top ∧ T.Ready h' top := by
  have hsaved := hready.saved hroom cause tval
  have hbase := toNat_frameOf hroom hready.le
  have hle := hready.le
  have hkeeps := hrun.keeps (by omega) (by omega) (hready.entered hroom cause tval).1 fun _ => rfl
  have hres := hkeeps.resumed hready hroom hsp hexit
  refine ⟨hsaved.gpr, hsaved.epc, hres, ?_⟩
  obtain ⟨hu, rfl⟩ | ⟨hk, rfl⟩ := hready
  · exact .inl ⟨hres.inUser hu.user, rfl⟩
  · obtain ⟨htp, hsp⟩ := hkeeps.nested_kernel hsaved hk.user
    refine .inr ⟨⟨hres.user.trans hk.user, hres.scratch hk.user, ?_, ?_⟩, ?_⟩
    · rw [hres.gpr tp (by decide), htp, hk.tp]
    · rw [hres.gpr sp (by decide), hsp]
      exact hk.le
    · rw [hres.gpr sp (by decide), hsp]

end Thread

/-- A layout with room for all registers. -/
def smallLayout : Layout where
  pt
    | .epc => 0
    | .status => 4
    | .badaddr => 8
    | .cause => 12
    | .origA0 => 16
    | .x r => 20 + 4 * r
  ptSize := 160
  kernelSp := 8
  userSp := 12
  flags := 0
  workMask := 14
  globalPointer := 0xc1000000
  pt_lt := by
    rintro (r | _)
    · show 20 + 4 * (r : Nat) < 160
      omega
    all_goals decide
  pt_injective := by
    rintro (r | _) (r' | _) h
    all_goals first | rfl | (exfalso; revert h; simp; done) | skip
    all_goals simp only at h
    · exact congrArg PtReg.x (Fin.ext (by omega))
    all_goals omega
  ptSize_lt := by decide
  kernelSp_ne := by decide

/-- A thread whose stack ends at `0xc0002000`. -/
def smallThread : Thread smallLayout where
  task := 0xc0800000
  lo := 0xc0000000
  hi := 0xc0002000
  hi_lt := by decide
  task_ne := by decide
  kernelSp_off := by
    rintro a hlo hhi rfl
    exact absurd hhi (by decide)
  userSp_off := by
    rintro a hlo hhi rfl
    exact absurd hhi (by decide)

/-- User space that counts its registers. -/
def running : Hart where
  x r := r.val
  pc := 0x10000
  user := true
  status := 0x22
  epc := 0
  cause := 0
  tval := 0
  scratch := 0xc0800000
  mem := update (fun _ => 0) 0xc0800008 0xc0002000

/-- The hart that goes on. -/
def Exit.hart : Exit → Hart
  | .resumed h => h
  | .work h => h

/-- Its system call, before the handler has run. -/
def entered : Hart := handleException smallLayout (running.trap 8 0)

/-- The handler has called a function, and is interrupted there. -/
def interrupted : Hart :=
  handleException smallLayout ((entered.set sp 0xc0001e00).trap 0x80000005 0)

/-- The handler of a system call is interrupted, and puts its answer, 38, into the saved `a0`. -/
theorem trap_transparent_running : ∃ k d h',
    smallThread.Handler 0xc0001f60 entered (Thread.content smallLayout entered 0xc0001f60) k d ∧
      retFromException smallLayout k = .resumed h' ∧ h'.x a0 = 38 ∧ h'.x a2 = 12 ∧
      h'.pc = 0x10000 ∧ smallThread.Ready h' 0xc0002000 := by
  have hready : smallThread.Ready running 0xc0002000 := .inl ⟨⟨rfl, rfl, rfl⟩, rfl⟩
  obtain ⟨h, hirq⟩ :=
    Thread.exists_resumed (L := smallLayout) (k := interrupted) (by decide +kernel)
  have hirq' : (retFromException smallLayout interrupted).hart.x tp = 0xc0800000 ∧
      (retFromException smallLayout interrupted).hart.mem 0xc0800000 = 0 := by
    decide +kernel
  rw [hirq] at hirq'
  obtain ⟨htp, hflags⟩ : h.x tp = 0xc0800000 ∧ h.mem 0xc0800000 = 0 := hirq'
  have hsp : interrupted.x sp =
      Thread.frameOf smallLayout ((entered.set sp 0xc0001e00).x sp).toNat := by
    decide +kernel
  have hpoke : Thread.Pokable (Thread.content smallLayout entered 0xc0001f60) (.x a0) :=
    ⟨by decide, fun _ => by decide⟩
  have hrun : smallThread.Handler 0xc0001f60 entered
      (Thread.content smallLayout entered 0xc0001f60)
      ((h.set sp 0xc0001f60).store (place smallLayout 0xc0001f60 (.x a0)) 38)
      (update (Thread.content smallLayout entered 0xc0001f60) (.x a0) 38) :=
    .code (Thread.code_sp _ (by decide)) <| .trap 0x80000005 0 (by decide) .done hsp hirq <|
      .code (Thread.code_sp _ (Nat.le_refl _)) <| .poke (.x a0) 38 hpoke .done
  have hne : (0xc0800000 : Word) + smallLayout.flags ≠ place smallLayout 0xc0001f60 (.x a0) := by
    decide
  have hwork : ((h.set sp 0xc0001f60).store (place smallLayout 0xc0001f60 (.x a0)) 38).mem
      (((h.set sp 0xc0001f60).store (place smallLayout 0xc0001f60 (.x a0)) 38).x tp +
        smallLayout.flags) &&& smallLayout.workMask = 0 := by
    show update h.mem (place smallLayout 0xc0001f60 (.x a0)) 38
      (h.x tp + smallLayout.flags) &&& smallLayout.workMask = 0
    rw [htp, update_of_ne hne]
    exact (congrArg (· &&& smallLayout.workMask) hflags).trans BitVec.zero_and
  obtain ⟨h', hexit⟩ := Thread.exists_resumed hwork
  obtain ⟨hgpr, hpc, hres, hready'⟩ := Thread.trap_transparent hready (by decide) hrun rfl hexit
  exact ⟨_, _, h', hrun, hexit, hres.gpr a0 (by decide),
    (hres.gpr a2 (by decide)).trans (hgpr a2 (by decide)), hres.pc.trans hpc, hready'⟩

end RealtekIpcam.Riscv
