import Mathlib
import RealtekIpcam.Lib.SaveArea
import RealtekIpcam.Opensbi.Model

/-!
# The trap entry of the kernel

`handle_exception` is where every trap of the RISC-V kernel goes, from user space and from the
kernel itself.  `CSR_SCRATCH` tells the two apart: it is the thread pointer while user space runs,
and zero in the kernel.  The registers are saved in a `struct pt_regs` on the kernel stack, and
`ret_from_exception` loads them back.

The hart is a 32-bit one, in S-mode.  Memory is taken in words, which is how this code accesses it;
the offsets that the build generates are a parameter, with what is known about them as fields.  With
`CONFIG_PREEMPTION` off, `resume_kernel` is `restore_all`.
-/

namespace RealtekIpcam.Riscv

open Function

open BitField (putBit)
open Opensbi (SIE SPIE SPP)

abbrev Word := BitVec 32
abbrev Gpr := Fin 32

theorem neZero_gprs : NeZero 32 := ⟨by decide⟩

attribute [local instance] neZero_gprs

def sp : Gpr := 2
def gp : Gpr := 3
def tp : Gpr := 4
def t0 : Gpr := 5
def s0 : Gpr := 8
def s1 : Gpr := 9
def a0 : Gpr := 10
def a2 : Gpr := 12

/-- The fields of `struct pt_regs`. -/
inductive PtReg where
  | x (r : Gpr)
  | epc | status | badaddr | cause | origA0
  deriving DecidableEq

/-- The constants of `asm-offsets.h`, and the global pointer. -/
structure Layout where
  pt : PtReg → Nat
  ptSize : Nat
  kernelSp : Word
  userSp : Word
  flags : Word
  workMask : Word
  globalPointer : Word
  pt_lt : ∀ f, pt f < ptSize
  pt_injective : Function.Injective pt
  ptSize_lt : ptSize < 2 ^ 32
  kernelSp_ne : kernelSp ≠ userSp

/-- The state of a hart. -/
structure Hart where
  x : Gpr → Word
  pc : Word
  user : Bool
  status : Word
  epc : Word
  cause : Word
  tval : Word
  scratch : Word
  mem : Word → Word

namespace Hart

variable (h : Hart)

def set (r : Gpr) (v : Word) : Hart := { h with x := update h.x r v }

def store (a v : Word) : Hart := { h with mem := update h.mem a v }

/-- A trap is taken: what the hardware does. -/
def trap (cause tval : Word) : Hart :=
  { h with
    user := false
    epc := h.pc
    cause := cause
    tval := tval
    status := putBit (putBit (putBit h.status SPP (!h.user)) SPIE (h.status.getLsbD SIE)) SIE
      false }

def sret : Hart :=
  { h with
    user := !h.status.getLsbD SPP
    pc := h.epc
    status := putBit (putBit (putBit h.status SIE (h.status.getLsbD SPIE)) SPIE true) SPP false }

end Hart

variable (L : Layout)

/-- Where a register is in the `struct pt_regs` at a stack pointer. -/
def place (base : Word) (f : PtReg) : Word := base + BitVec.ofNat 32 (L.pt f)

/-- The registers that are stored in a row: not `sp` and `tp`, which have been changed. -/
def savedRegs : List Gpr :=
  [1, 3, 5, 6, 7, 8, 9, 10, 11, 12, 13, 14, 15, 16, 17, 18, 19, 20, 21, 22, 23, 24, 25, 26, 27, 28,
    29, 30, 31]

/-- The registers that are loaded in a row: not `sp`, which is the base. -/
def restoredRegs : List Gpr :=
  [1, 3, 4, 5, 6, 7, 8, 9, 10, 11, 12, 13, 14, 15, 16, 17, 18, 19, 20, 21, 22, 23, 24, 25, 26, 27,
    28, 29, 30, 31]

def srSum : Word := 0x40000#32
def srFs : Word := 0x6000#32

/-- `handle_exception` up to `_save_context`: afterwards `tp` is the one of the kernel, and the
scratch register has the one that was interrupted. -/
def swapTp (h : Hart) : Hart :=
  let h := { h.set tp h.scratch with scratch := h.x tp }
  if h.x tp = 0 then
    let h := h.set tp h.scratch
    h.store (h.x tp + L.kernelSp) (h.x sp)
  else h

/-- `_save_context`, the general registers. -/
def saveContext (h : Hart) : Hart :=
  let h := h.store (h.x tp + L.userSp) (h.x sp)
  let h := h.set sp (h.mem (h.x tp + L.kernelSp) - BitVec.ofNat 32 L.ptSize)
  { h with mem := SaveArea.save (fun r => place L (h.x sp) (.x r)) h.x savedRegs h.mem }

/-- `_save_context`, the CSRs and the two pointers.  `SR_SUM` and `SR_FS` are cleared. -/
def saveCsrs (h : Hart) : Hart :=
  let h := h.set t0 (srSum ||| srFs)
  let h := h.set s0 (h.mem (h.x tp + L.userSp))
  let h := { h.set s1 h.status with status := h.status &&& ~~~h.x t0 }
  let h := (((h.set 18 h.epc).set 19 h.tval).set 20 h.cause).set 21 h.scratch
  let h := h.store (place L (h.x sp) (.x sp)) (h.x s0)
  let h := h.store (place L (h.x sp) .status) (h.x s1)
  let h := h.store (place L (h.x sp) .epc) (h.x 18)
  let h := h.store (place L (h.x sp) .badaddr) (h.x 19)
  let h := h.store (place L (h.x sp) .cause) (h.x 20)
  let h := h.store (place L (h.x sp) (.x tp)) (h.x 21)
  { h.set gp L.globalPointer with scratch := 0 }

/-- `handle_exception`, until it looks at the cause. -/
def handleException (h : Hart) : Hart := saveCsrs L (saveContext L (swapTp L h))

/-- `restore_all`, the CSRs.  The store conditional that ends a reservation writes what is there. -/
def loadCsrs (h : Hart) : Hart :=
  let h := h.set a0 (h.mem (place L (h.x sp) .status))
  let h := h.set a2 (h.mem (place L (h.x sp) .epc))
  let h := h.store (place L (h.x sp) .epc) (h.x a2)
  { h with status := h.x a0, epc := h.x a2 }

/-- `restore_all`, the general registers. -/
def loadGprs (h : Hart) : Hart :=
  let addr r := place L (h.x sp) (.x r)
  let h := { h with x := SaveArea.restore addr h.mem restoredRegs h.x }
  h.set sp (h.mem (addr sp))

def restoreAll (h : Hart) : Hart := (loadGprs L (loadCsrs L h)).sret

/-- How `ret_from_exception` goes on. -/
inductive Exit where
  /-- The interrupted code goes on. -/
  | resumed (h : Hart)
  /-- `work_pending`: a function is called that returns to `ret_from_exception`. -/
  | work (h : Hart)

def retFromException (h : Hart) : Exit :=
  let h := h.set s0 (h.mem (place L (h.x sp) .status))
  let h := { h with status := putBit h.status SIE false }
  let h := h.set s0 (h.x s0 &&& 1#32 <<< SPP)
  if h.x s0 ≠ 0 then .resumed (restoreAll L h)
  else
    -- `resume_userspace`
    let h := h.set s0 (h.mem (h.x tp + L.flags))
    let h := h.set s1 (h.x s0 &&& L.workMask)
    if h.x s1 ≠ 0 then .work h
    else
      let h := h.set s0 (h.x sp + BitVec.ofNat 32 L.ptSize)
      let h := h.store (h.x tp + L.kernelSp) (h.x s0)
      .resumed (restoreAll L { h with scratch := h.x tp })

/-! ## What the pieces do -/

section

variable {L} {h : Hart} {base : Word} {f g : PtReg} {task top : Word}

theorem toNat_place (hbase : base.toNat + L.ptSize ≤ 2 ^ 32) (f : PtReg) :
    (place L base f).toNat = base.toNat + L.pt f := by
  have hlt := L.pt_lt f
  rw [place, BitVec.toNat_add, BitVec.toNat_ofNat]
  omega

theorem place_inj : place L base f = place L base g ↔ f = g := by
  refine ⟨fun h => L.pt_injective ?_, fun h => h ▸ rfl⟩
  have heq := congrArg BitVec.toNat ((BitVec.add_right_inj base).mp h)
  have hf := L.pt_lt f
  have hg := L.pt_lt g
  have hsize := L.ptSize_lt
  simp only [BitVec.toNat_ofNat] at heq
  omega

/-- The thread that a trap finds, and the end of the memory that it may use. -/
def Finds (L : Layout) (h : Hart) (task top : Word) : Prop :=
  h.scratch = 0 ∧ h.x tp = task ∧ h.x sp = top ∨
    h.scratch = task ∧ task ≠ 0 ∧ h.mem (task + L.kernelSp) = top

/-- A word is neither in the frame nor one of the two of the thread that the entry writes. -/
def Off (L : Layout) (task base a : Word) : Prop :=
  a ≠ task + L.kernelSp ∧ a ≠ task + L.userSp ∧ ∀ f, place L base f ≠ a

theorem swapTp_spec (hfinds : Finds L h task top) :
    (swapTp L h).x = update h.x tp task ∧ (swapTp L h).scratch = h.x tp ∧
      (swapTp L h).mem (task + L.kernelSp) = top ∧
      (∀ a, a ≠ task + L.kernelSp → (swapTp L h).mem a = h.mem a) ∧
      (swapTp L h).user = h.user ∧ (swapTp L h).epc = h.epc ∧ (swapTp L h).status = h.status := by
  obtain ⟨hzero, htp, hsp⟩ | ⟨htask, hne, hmem⟩ := hfinds
  · simp [swapTp, Hart.set, Hart.store, hzero, htp, hsp, show sp ≠ tp from by decide]
    exact fun a ha => update_of_ne ha ..
  · have hne : ¬ task = 0#32 := hne
    simp [swapTp, Hart.set, htask, hne, hmem]

theorem saveContext_spec (htp : h.x tp = task) (hmem : h.mem (task + L.kernelSp) = top)
    (hbase : top - BitVec.ofNat 32 L.ptSize = base) :
    (saveContext L h).x = update h.x sp base ∧ (saveContext L h).mem =
      SaveArea.save (fun r => place L base (.x r)) (update h.x sp base) savedRegs
        (update h.mem (task + L.userSp) (h.x sp)) := by
  have hne : task + L.kernelSp ≠ task + L.userSp :=
    fun heq => L.kernelSp_ne ((BitVec.add_right_inj task).mp heq)
  simp only [saveContext, Hart.set, Hart.store, htp, update_of_ne hne, hmem, hbase,
    update_self, and_self]

theorem saveCsrs_spec (hsp : h.x sp = base) (htp : h.x tp = task) :
    (saveCsrs L h).x sp = base ∧ (saveCsrs L h).x tp = task ∧
      (saveCsrs L h).mem = update (update (update (update
        (update (update h.mem
          (place L base (.x sp)) (h.mem (task + L.userSp)))
          (place L base .status) h.status) (place L base .epc) h.epc)
          (place L base .badaddr) h.tval) (place L base .cause) h.cause)
          (place L base (.x tp)) h.scratch := by
  subst hsp htp
  exact ⟨rfl, rfl, rfl⟩

/-- What is in the frame after the entry, if its words are none of the thread's. -/
structure Saved (L : Layout) (h e : Hart) (task base : Word) : Prop where
  sp : e.x sp = base
  tp : e.x tp = task
  scratch : e.scratch = 0
  user : e.user = h.user
  gpr : ∀ r, r ≠ 0 → e.mem (place L base (.x r)) = h.x r
  epc : e.mem (place L base .epc) = h.epc
  status : e.mem (place L base .status) = h.status
  off : ∀ a, Off L task base a → e.mem a = h.mem a

theorem gpr_cases : ∀ r : Gpr, r = 0 ∨ r = sp ∨ r = tp ∨ r ∈ savedRegs ∧ r ≠ sp ∧ r ≠ tp := by
  decide

/-- **The entry saves what was interrupted**, whoever was. -/
theorem handleException_saved (hfinds : Finds L h task top)
    (hbase : top - BitVec.ofNat 32 L.ptSize = base)
    (hapart : ∀ f, place L base f ≠ task + L.kernelSp ∧ place L base f ≠ task + L.userSp) :
    Saved L h (handleException L h) task base := by
  obtain ⟨hx, hscratch, hmem, hrest, huser, hepc, hstatus⟩ := swapTp_spec hfinds
  obtain ⟨hcx, hcmem⟩ := saveContext_spec (by rw [hx]; exact update_self ..) hmem hbase
  have hcsp : (saveContext L (swapTp L h)).x sp = base := by rw [hcx]; exact update_self ..
  have hctp : (saveContext L (swapTp L h)).x tp = task := by rw [hcx, hx]; rfl
  obtain ⟨hsp, htp, hemem⟩ := saveCsrs_spec (L := L) hcsp hctp
  have huserSp : (saveContext L (swapTp L h)).mem (task + L.userSp) = h.x sp := by
    rw [hcmem, SaveArea.save_of_ne fun r _ => (hapart (.x r)).2, update_self, hx]
    rfl
  refine ⟨hsp, htp, rfl, huser, fun r hr => ?_, ?_, ?_, fun a ha => ?_⟩
  all_goals rw [handleException, hemem]
  · simp only [update_apply, place_inj, PtReg.x.injEq, reduceCtorEq, if_false]
    obtain h0 | rfl | rfl | ⟨hmemr, hrsp, hrtp⟩ := gpr_cases r
    · exact absurd h0 hr
    · rw [if_neg (by decide), if_pos rfl, huserSp]
    · rw [if_pos rfl]
      exact hscratch
    · rw [if_neg hrtp, if_neg hrsp, hcmem, SaveArea.save_apply (fun s _ heq => ?_) hmemr, hx,
        update_of_ne hrsp, update_of_ne hrtp]
      exact PtReg.x.inj (place_inj.mp heq)
  · simp only [update_apply, place_inj, reduceCtorEq, if_false, if_true]
    exact hepc
  · simp only [update_apply, place_inj, reduceCtorEq, if_false, if_true]
    exact hstatus
  · obtain ⟨hk, hu, hf⟩ := ha
    simp only [update_of_ne (hf _).symm]
    rw [hcmem, SaveArea.save_of_ne fun r _ => hf (.x r), update_of_ne hu, hrest a hk]

/-- What goes on after a frame has been loaded. -/
structure Loaded (L : Layout) (h r : Hart) (c : PtReg → Word) : Prop where
  gpr : ∀ g, g ≠ 0 → r.x g = c (.x g)
  pc : r.pc = c .epc
  user : r.user = !(c .status).getLsbD SPP
  status : ∀ i < 32, i ≠ SPIE → i ≠ SPP →
    r.status.getLsbD i = (c .status).getLsbD (if i = SIE then SPIE else i)
  scratch : r.scratch = h.scratch
  mem : r.mem = h.mem

theorem restored_cases : ∀ r : Gpr, r = 0 ∨ r = sp ∨ r ∈ restoredRegs ∧ r ≠ sp := by decide

theorem loadCsrs_eq {c : PtReg → Word} (hc : ∀ f, h.mem (place L (h.x sp) f) = c f) :
    loadCsrs L h = { h with
      x := update (update h.x a0 (c .status)) a2 (c .epc)
      status := c .status
      epc := c .epc } := by
  have hmem : update h.mem (place L (h.x sp) .epc) (c .epc) = h.mem := by
    rw [← hc .epc]
    exact update_eq_self ..
  have ha0 : sp ≠ a0 := by decide
  have ha2 : sp ≠ a2 := by decide
  have hne : a0 ≠ a2 := by decide
  simp only [loadCsrs, Hart.set, Hart.store, update_of_ne ha0, update_of_ne ha2,
    update_of_ne hne, update_self, hc, hmem]

theorem loadGprs_x {c : PtReg → Word} (hc : ∀ f, h.mem (place L (h.x sp) f) = c f) {g : Gpr}
    (hg : g ≠ 0) : (loadGprs L h).x g = c (.x g) := by
  simp only [loadGprs, Hart.set]
  obtain h0 | rfl | ⟨hmemg, hne⟩ := restored_cases g
  · exact absurd h0 hg
  · rw [update_self, hc]
  · rw [update_of_ne hne, SaveArea.restore_of_mem hmemg, hc]

theorem restoreAll_loaded {c : PtReg → Word} (hc : ∀ f, h.mem (place L (h.x sp) f) = c f) :
    Loaded L h (restoreAll L h) c := by
  have hsp : (loadCsrs L h).x sp = h.x sp := by
    rw [loadCsrs_eq hc]
    rfl
  have hcsrs : ∀ f, (loadCsrs L h).mem (place L ((loadCsrs L h).x sp) f) = c f := by
    rw [hsp, loadCsrs_eq hc]
    exact hc
  refine ⟨fun g hg => loadGprs_x hcsrs hg, ?_, ?_, fun i hi hspie hspp => ?_, ?_, ?_⟩
  all_goals rw [restoreAll, loadCsrs_eq hc]
  · rfl
  · rfl
  · simp only [Hart.sret, loadGprs, Hart.set, BitField.getLsbD_putBit hi, if_neg hspie,
      if_neg hspp]
    split
    · rfl
    · rfl
  · rfl
  · rfl

end
end RealtekIpcam.Riscv
