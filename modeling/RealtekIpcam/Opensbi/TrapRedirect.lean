import RealtekIpcam.Opensbi.Model

/-!
# Redirecting a trap

`sbi_trap_redirect` makes the lower mode see a trap that M-mode has taken in its place.  What the
hart would have done is in the privileged specification: `takeTrap` enters S-mode, or VS-mode for
the page faults of a guest, as the hardware does for a delegated exception.  The refinement compares
two states: the one after the redirection and the following `mret`, and the one that a return to the
trapped code and a trap taken there directly would give.

They agree but for one bit.  A trap into HS-mode writes the previous virtualization mode to
`hstatus.SPV`; the firmware writes it only when that mode was virtual.
-/

namespace RealtekIpcam.Opensbi

open BitField

variable {x : Xlen} (err : SbiError)

/-! ## The firmware -/

def CAUSE_FETCH_PAGE_FAULT : Nat := 0xc
def CAUSE_LOAD_PAGE_FAULT : Nat := 0xd
def CAUSE_STORE_PAGE_FAULT : Nat := 0xf

/-- The cases of the switch on `trap->cause`. -/
def isPageFault (cause : Ulong x) : Bool :=
  cause.toNat = CAUSE_FETCH_PAGE_FAULT || cause.toNat = CAUSE_LOAD_PAGE_FAULT ||
    cause.toNat = CAUSE_STORE_PAGE_FAULT

/-- The updates of SPP, SPIE and SIE, which are the same for `vsstatus` and `mstatus`. -/
def pushStatus (status prevMode : Ulong x) : Ulong x :=
  let status := status &&& ~~~(1#x.width <<< SPP)
  let status := if prevMode = Priv.s.val then status ||| 1#x.width <<< SPP else status
  let status := status &&& ~~~(1#x.width <<< SPIE)
  let status :=
    if status &&& 1#x.width <<< SIE ≠ 0#x.width then status ||| 1#x.width <<< SPIE else status
  status &&& ~~~(1#x.width <<< SIE)

/-- The update of `hstatus`, `htval` and `htinst`. -/
def Hart.pushHstatus (h : Hart x) (prevMode : Ulong x) (prevVirt : Bool) (trap : SbiTrapInfo x) :
    Hart x :=
  let hstatus := h.hstatus &&& ~~~(1#x.width <<< SPVP)
  let hstatus := hstatus ||| if prevMode = Priv.s.val then 1#x.width <<< SPVP else 0#x.width
  let hstatus := hstatus &&& ~~~(1#x.width <<< SPV)
  let hstatus := hstatus ||| if prevVirt then 1#x.width <<< SPV else 0#x.width
  { h with hstatus := hstatus, htval := trap.tval2, htinst := trap.tinst }

def sbiTrapRedirect (h : Hart x) (regs : SbiTrapRegs x) (trap : SbiTrapInfo x) :
    Int × Hart x × SbiTrapRegs x :=
  let prevVirt := mpv regs
  let prevMode := mpp regs.mstatus
  if prevMode ≠ Priv.s.val ∧ prevMode ≠ Priv.u.val then (err.ENOTSUPP, h, regs)
  else
    let nextVirt := h.misaH && prevVirt && isPageFault trap.cause
    let regs := setMpv regs nextVirt
    let h := if h.misaH && prevVirt && !nextVirt then h.pushHstatus prevMode prevVirt trap else h
    if nextVirt then
      let h := { h with
        vs := { h.vs with tval := trap.tval, epc := trap.epc, cause := trap.cause } }
      let regs := { regs with
        mepc := h.vs.tvec.val
        mstatus := setMpp regs.mstatus .s }
      (0, { h with vsstatus := pushStatus h.vsstatus prevMode }, regs)
    else
      let h := { h with
        s := { h.s with tval := trap.tval, epc := trap.epc, cause := trap.cause } }
      (0, h, { regs with
        mepc := h.s.tvec.val
        mstatus := pushStatus (setMpp regs.mstatus .s) prevMode })

/-! ## The specification -/

/-- A hart that executes in some mode. -/
structure Running (x : Xlen) where
  hart : Hart x
  gpr : Gpr → Ulong x
  mstatus : Ulong x
  mstatusH : Ulong x
  pc : Ulong x
  mode : Priv
  virt : Bool

/-- The mode that `mstatus.MPP` names. -/
def modeOf (mstatus : Ulong x) : Priv :=
  match mstatus.getLsbD 12, mstatus.getLsbD 11 with
  | false, false => .u
  | false, true => .s
  | true, _ => .m

/-- The address that a return to `epc` goes to: its low bit reads as zero, and the next one too if
instructions have 32 bits. -/
def returnAddress (h : Hart x) (epc : Ulong x) : Ulong x :=
  if h.misaC then putBit epc 0 false else putBit (putBit epc 0 false) 1 false

def mret (h : Hart x) (regs : SbiTrapRegs x) : Running x :=
  let mode := modeOf regs.mstatus
  let mstatus := regs.mstatus
  let mstatus := putBit mstatus MIE (mstatus.getLsbD MPIE)
  let mstatus := putBit mstatus MPIE true
  let mstatus := putBit (putBit mstatus 12 false) 11 false
  let mstatus := if mode = .m then mstatus else putBit mstatus MPRV false
  let left := setMpv { regs with mstatus := mstatus } false
  { hart := h
    gpr := regs.gpr
    mstatus := left.mstatus
    mstatusH := left.mstatusH
    pc := returnAddress h regs.mepc
    mode := mode
    virt := h.misaH && mpv regs && mode ≠ .m }

/-- A trap pushes the interrupt enable bit, and keeps the mode it came from. -/
def enterStatus (status : Ulong x) (mode : Priv) : Ulong x :=
  putBit (putBit (putBit status SPP (mode = .s)) SPIE (status.getLsbD SIE)) SIE false

/-- The base of a trap vector. -/
def Tvec.base (t : Tvec x) : Ulong x := putBit (putBit t.val 0 false) 1 false

/-- The CSRs of the mode that takes a trap. -/
def TrapCsrs.enter (csrs : TrapCsrs x) (trap : SbiTrapInfo x) : TrapCsrs x :=
  { csrs with epc := trap.epc, cause := trap.cause, tval := trap.tval }

/-- A trap into VS-mode. -/
def Running.enterVs (r : Running x) (trap : SbiTrapInfo x) : Running x :=
  { r with
    hart := { r.hart with
      vs := r.hart.vs.enter trap
      vsstatus := enterStatus r.hart.vsstatus r.mode }
    pc := r.hart.vs.tvec.base
    mode := .s
    virt := true }

/-- What a trap into HS-mode makes of `hstatus`: SPV is the previous virtualization mode, and SPVP
changes only if that was virtual. -/
def Running.enterHstatus (r : Running x) : Ulong x :=
  let hstatus := r.hart.hstatus
  putBit (if r.virt then putBit hstatus SPVP (r.mode = .s) else hstatus) SPV r.virt

/-- A trap into S-mode, which is HS-mode on a hart with the hypervisor extension. -/
def Running.enterS (r : Running x) (trap : SbiTrapInfo x) : Running x :=
  { r with
    hart := { r.hart with
      s := r.hart.s.enter trap
      hstatus := if r.hart.misaH then r.enterHstatus else r.hart.hstatus
      htval := if r.hart.misaH then trap.tval2 else r.hart.htval
      htinst := if r.hart.misaH then trap.tinst else r.hart.htinst }
    mstatus := enterStatus r.mstatus r.mode
    pc := r.hart.s.tvec.base
    mode := .s
    virt := false }

/-- **A trap taken directly**, in VS-mode for a page fault of a guest, else in S-mode. -/
def takeTrap (r : Running x) (trap : SbiTrapInfo x) : Running x :=
  if r.virt && isPageFault trap.cause then r.enterVs trap else r.enterS trap

/-- Two harts agree, but for the guest address and instruction of the last trap. -/
def Agree (r r' : Running x) : Prop :=
  { r with hart := { r.hart with htval := r'.hart.htval, htinst := r'.hart.htinst } } = r'

/-- What a redirection should do: it refuses a trap of M-mode and changes nothing, and if it returns
0 the following `mret` gives the state of the trap taken directly. -/
def RedirectOk (h : Hart x) (regs : SbiTrapRegs x) (trap : SbiTrapInfo x) : Prop :=
  (modeOf regs.mstatus = .m → (sbiTrapRedirect err h regs trap).1 ≠ 0 ∧
    (sbiTrapRedirect err h regs trap).2 = (h, regs)) ∧
  ((sbiTrapRedirect err h regs trap).1 = 0 →
    Agree (mret (sbiTrapRedirect err h regs trap).2.1 (sbiTrapRedirect err h regs trap).2.2)
      (takeTrap (mret h regs) trap))

/-! ## The updates as bits -/

theorem lt_width {n : Nat} (hn : n < 32 := by decide) : n < x.width := by
  cases x with
  | rv32 => exact hn
  | rv64 => exact Nat.lt_trans hn (by decide)

theorem mpvBit_lt_width : mpvBit x < x.width := by cases x <;> decide

variable {w : Nat} {v : BitVec w} {n : Nat}

theorem and_not_eq_putBit : v &&& ~~~(1#w <<< n) = putBit v n false := by
  rw [putBit, if_neg Bool.false_ne_true, BitVec.or_zero]

theorem ite_or_eq_putBit (b : Prop) [Decidable b] :
    (if b then putBit v n false ||| 1#w <<< n else putBit v n false) = putBit v n b := by
  by_cases hb : b
  · rw [if_pos hb, decide_eq_true hb, ← and_not_eq_putBit]
    exact (congrArg _ (if_pos rfl)).symm
  · rw [if_neg hb, decide_eq_false hb]

theorem pushStatus_eq (status prevMode : Ulong x) :
    pushStatus status prevMode = putBit (putBit (putBit status SPP (prevMode = Priv.s.val)) SPIE
      (status.getLsbD SIE)) SIE false := by
  have hsie : ∀ v : Ulong x, (v &&& 1#x.width <<< SIE ≠ 0#x.width) = (v.getLsbD SIE = true) :=
    fun v => propext (and_one_shiftLeft_ne_zero lt_width)
  have hbit : (putBit (putBit status SPP (prevMode = Priv.s.val)) SPIE false).getLsbD SIE =
      status.getLsbD SIE := by
    rw [getLsbD_putBit lt_width, getLsbD_putBit lt_width]
    rfl
  unfold pushStatus
  simp only [and_not_eq_putBit, ite_or_eq_putBit, hsie, hbit, Bool.decide_eq_true]

theorem getLsbD_mppMask {i : Nat} (hi : i < x.width) :
    (3#x.width <<< MPP_SHIFT).getLsbD i = decide (i = 11 ∨ i = 12) := by
  have hthree : ∀ k, (3#x.width).getLsbD k = decide (k < 2) := by
    intro k
    rw [BitVec.getLsbD_ofNat, show 3 = 2 ^ 2 - 1 from rfl, Nat.testBit_two_pow_sub_one]
    by_cases hk : k < 2
    · rw [decide_eq_true hk, decide_eq_true (Nat.lt_trans hk lt_width), Bool.true_and]
    · rw [decide_eq_false hk, Bool.and_false]
  rw [BitVec.getLsbD_shiftLeft, hthree, decide_eq_true hi, Bool.true_and, MPP_SHIFT]
  by_cases hlo : i < 11
  · have hne : ¬ (i = 11 ∨ i = 12) := by omega
    rw [decide_eq_true hlo, decide_eq_false hne]
    rfl
  · rw [decide_eq_false hlo, Bool.not_false, Bool.true_and]
    exact decide_eq_decide.mpr (by omega)

theorem getLsbD_mpp {mstatus : Ulong x} {i : Nat} (hi : i < x.width) :
    (mpp mstatus).getLsbD i =
      if i = 0 then mstatus.getLsbD 11 else if i = 1 then mstatus.getLsbD 12 else false := by
  unfold mpp
  rw [BitVec.getLsbD_ushiftRight, BitVec.getLsbD_and]
  by_cases hlt : MPP_SHIFT + i < x.width
  · rw [getLsbD_mppMask hlt, MPP_SHIFT]
    by_cases h0 : i = 0
    · subst h0
      simp
    · by_cases h1 : i = 1
      · subst h1
        simp
      · have hne : ¬ (11 + i = 11 ∨ 11 + i = 12) := by omega
        rw [decide_eq_false hne, if_neg h0, if_neg h1, Bool.and_false]
  · have h0 : ¬ i = 0 := fun h => hlt (by rw [h]; exact lt_width)
    have h1 : ¬ i = 1 := fun h => hlt (by rw [h]; exact lt_width)
    rw [BitVec.getLsbD_of_ge _ _ (Nat.le_of_not_lt hlt), if_neg h0, if_neg h1, Bool.false_and]

theorem mpp_eq_iff (mstatus : Ulong x) (mode : Priv) :
    mpp mstatus = mode.val ↔ mstatus.getLsbD 11 = (mode.val : Ulong x).getLsbD 0 ∧
      mstatus.getLsbD 12 = (mode.val : Ulong x).getLsbD 1 := by
  have hval : ∀ i, ¬ i = 0 → ¬ i = 1 → (mode.val : Ulong x).getLsbD i = false := by
    intro i h0 h1
    have hnot : ¬ i < 2 := by omega
    cases mode with
    | u => exact BitVec.getLsbD_zero
    | s =>
      show (BitVec.ofNat _ _).getLsbD i = _
      rw [BitVec.getLsbD_one, decide_eq_false h0, Bool.and_false]
    | m =>
      show (BitVec.ofNat _ _).getLsbD i = _
      rw [BitVec.getLsbD_ofNat, show 3 = 2 ^ 2 - 1 from rfl, Nat.testBit_two_pow_sub_one,
        decide_eq_false hnot, Bool.and_false]
  constructor
  · intro h
    rw [← h, getLsbD_mpp lt_width, getLsbD_mpp lt_width]
    exact ⟨rfl, rfl⟩
  · rintro ⟨h0, h1⟩
    apply BitVec.eq_of_getLsbD_eq
    intro i hi
    rw [getLsbD_mpp hi]
    split
    · next h => rw [h, h0]
    · split
      · next h => rw [h, h1]
      · next hn0 hn1 => exact (hval i hn0 hn1).symm

theorem mpp_eq_s (mstatus : Ulong x) : mpp mstatus = Priv.s.val ↔ modeOf mstatus = .s := by
  have h0 : (Priv.s.val : Ulong x).getLsbD 0 = true := by cases x <;> rfl
  have h1 : (Priv.s.val : Ulong x).getLsbD 1 = false := by cases x <;> rfl
  rw [mpp_eq_iff, h0, h1, modeOf]
  cases mstatus.getLsbD 11 <;> cases mstatus.getLsbD 12 <;> simp

theorem mpp_eq_u (mstatus : Ulong x) : mpp mstatus = Priv.u.val ↔ modeOf mstatus = .u := by
  have h0 : (Priv.u.val : Ulong x).getLsbD 0 = false := by cases x <;> rfl
  have h1 : (Priv.u.val : Ulong x).getLsbD 1 = false := by cases x <;> rfl
  rw [mpp_eq_iff, h0, h1, modeOf]
  cases mstatus.getLsbD 11 <;> cases mstatus.getLsbD 12 <;> simp

theorem setMpp_s (mstatus : Ulong x) :
    setMpp mstatus .s = putBit (putBit mstatus 12 false) 11 true := by
  apply BitVec.eq_of_getLsbD_eq
  intro i hi
  have hone : ((Priv.s.val : Ulong x) <<< MPP_SHIFT).getLsbD i = decide (i = 11) :=
    getLsbD_one_shiftLeft hi
  rw [setMpp, BitVec.getLsbD_or, BitVec.getLsbD_and, BitVec.getLsbD_not, getLsbD_mppMask hi, hone,
    getLsbD_putBit hi, getLsbD_putBit hi, decide_eq_true hi]
  by_cases h11 : i = 11
  · simp [h11]
  · by_cases h12 : i = 12
    · simp [h12]
    · simp [h11, h12]

theorem pushHstatus_eq (h : Hart x) (prevMode : Ulong x) (prevVirt : Bool) (trap : SbiTrapInfo x) :
    h.pushHstatus prevMode prevVirt trap = { h with
      hstatus := putBit (putBit h.hstatus SPVP (prevMode = Priv.s.val)) SPV prevVirt
      htval := trap.tval2
      htinst := trap.tinst } := by
  have hbit : ∀ (v : Ulong x) (n : Nat) (b : Prop) [Decidable b],
      v &&& ~~~(1#x.width <<< n) ||| (if b then 1#x.width <<< n else 0#x.width) = putBit v n b := by
    intro v n b _
    by_cases hb : b <;> simp [putBit, hb]
  unfold Hart.pushHstatus
  simp only [hbit, Bool.decide_eq_true]

/-! ## The comparison -/

variable {h : Hart x} {regs : SbiTrapRegs x} {trap : SbiTrapInfo x}

theorem returnAddress_tvec (t : Tvec x) : returnAddress h t.val = t.base := by
  unfold returnAddress Tvec.base
  split
  · apply BitVec.eq_of_getLsbD_eq
    intro i hi
    rw [getLsbD_putBit hi, getLsbD_putBit hi, getLsbD_putBit hi]
    by_cases h1 : i = 1
    · subst h1
      rw [if_neg (by decide), if_pos rfl]
      exact t.mode
    · rw [if_neg h1]
  · rfl

theorem mpv_eq (regs : SbiTrapRegs x) : mpv regs =
    if x = .rv32 then regs.mstatusH.getLsbD (mpvBit x) else regs.mstatus.getLsbD (mpvBit x) := by
  unfold mpv
  by_cases hx : x = .rv32
  · rw [if_pos hx, if_pos hx]
    simp only [and_one_shiftLeft_ne_zero mpvBit_lt_width, Bool.decide_eq_true]
  · rw [if_neg hx, if_neg hx]
    simp only [and_one_shiftLeft_ne_zero mpvBit_lt_width, Bool.decide_eq_true]

theorem getLsbD_setMpv_mstatus {i : Nat} (hi : i < x.width) (virt : Bool) :
    (setMpv regs virt).mstatus.getLsbD i =
      if x ≠ .rv32 ∧ i = mpvBit x then virt else regs.mstatus.getLsbD i := by
  unfold setMpv
  by_cases hx : x = .rv32
  · rw [if_pos hx, if_neg fun hne => hne.1 hx]
  · rw [if_neg hx, getLsbD_putBit hi]
    simp only [hx, ne_eq, not_false_eq_true, true_and]

theorem getLsbD_setMpv_mstatusH {i : Nat} (hi : i < x.width) (virt : Bool) :
    (setMpv regs virt).mstatusH.getLsbD i =
      if x = .rv32 ∧ i = mpvBit x then virt else regs.mstatusH.getLsbD i := by
  unfold setMpv
  by_cases hx : x = .rv32
  · rw [if_pos hx, getLsbD_putBit hi]
    simp only [hx, true_and]
  · rw [if_neg hx, if_neg fun hne => hx hne.1]

theorem getLsbD_mret (hm : modeOf regs.mstatus ≠ .m) {i : Nat} (hi : i < x.width) :
    (mret h regs).mstatus.getLsbD i =
      if x ≠ .rv32 ∧ i = mpvBit x then false
      else if i = MPRV ∨ i = 11 ∨ i = 12 then false
      else if i = MPIE then true
      else if i = MIE then regs.mstatus.getLsbD MPIE
      else regs.mstatus.getLsbD i := by
  unfold mret
  simp only [getLsbD_setMpv_mstatus hi, hm, if_false, getLsbD_putBit hi]
  split
  · rfl
  · by_cases h17 : i = MPRV
    · simp [h17]
    · by_cases h11 : i = 11
      · simp [h11]
      · by_cases h12 : i = 12
        · simp [h12]
        · simp [h17, h11, h12]

theorem getLsbD_mret_mstatusH {i : Nat} (hi : i < x.width) :
    (mret h regs).mstatusH.getLsbD i =
      if x = .rv32 ∧ i = mpvBit x then false else regs.mstatusH.getLsbD i :=
  getLsbD_setMpv_mstatusH hi false

/-- What the two redirections have in common: MPP is S-mode, and MPV the next virtualization
mode. -/
structure Redirected (regs regs' : SbiTrapRegs x) (virt : Bool) : Prop where
  gpr : regs'.gpr = regs.gpr
  mstatusH : regs'.mstatusH = (setMpv regs virt).mstatusH
  mpvBit : x ≠ .rv32 → regs'.mstatus.getLsbD (mpvBit x) = virt
  mode : modeOf regs'.mstatus = .s

variable {regs' : SbiTrapRegs x} {virt : Bool} {h' : Hart x}

theorem Redirected.running (h h' : Hart x) (hr : Redirected regs regs' virt) :
    (mret h' regs').gpr = regs.gpr ∧ (mret h' regs').mode = .s ∧
      (mret h' regs').virt = (h'.misaH && virt) ∧
      (mret h' regs').mstatusH = (mret h regs).mstatusH := by
  have hmpv : mpv regs' = virt := by
    rw [mpv_eq]
    by_cases hx : x = .rv32
    · rw [if_pos hx, hr.mstatusH, getLsbD_setMpv_mstatusH mpvBit_lt_width, if_pos ⟨hx, rfl⟩]
    · rw [if_neg hx, hr.mpvBit hx]
  refine ⟨?_, hr.mode, ?_, ?_⟩
  · unfold mret setMpv
    split <;> exact hr.gpr
  · show (h'.misaH && mpv regs' && decide (modeOf regs'.mstatus ≠ .m)) = _
    rw [hmpv, hr.mode]
    exact Bool.and_true _
  · apply BitVec.eq_of_getLsbD_eq
    intro i hi
    rw [getLsbD_mret_mstatusH hi, getLsbD_mret_mstatusH hi, hr.mstatusH,
      getLsbD_setMpv_mstatusH hi]
    split
    · rfl
    · rfl

theorem getLsbD_setMpp_setMpv {i : Nat} (hi : i < x.width) :
    (setMpp (setMpv regs virt).mstatus .s).getLsbD i =
      if i = 11 then true else if i = 12 then false
      else if x ≠ .rv32 ∧ i = mpvBit x then virt else regs.mstatus.getLsbD i := by
  rw [setMpp_s, getLsbD_putBit hi, getLsbD_putBit hi, getLsbD_setMpv_mstatus hi]

theorem modeOf_eq_s {mstatus : Ulong x} (hhi : mstatus.getLsbD 12 = false)
    (hlo : mstatus.getLsbD 11 = true) : modeOf mstatus = .s := by
  rw [modeOf, hhi, hlo]

theorem mpvBit_of_ne (hx : x ≠ .rv32) : mpvBit x = 39 := by
  cases x with
  | rv32 => exact absurd rfl hx
  | rv64 => rfl

example : mpvBit .rv64 = 39 := by decide +kernel

theorem redirected_vs (regs : SbiTrapRegs x) (virt : Bool) (mepc : Ulong x) :
    Redirected regs { setMpv regs virt with
      mepc := mepc, mstatus := setMpp (setMpv regs virt).mstatus .s } virt where
  gpr := by unfold setMpv; split <;> rfl
  mstatusH := rfl
  mpvBit hx := by
    have h11 : ¬ Opensbi.mpvBit x = 11 := by rw [mpvBit_of_ne hx]; decide
    have h12 : ¬ Opensbi.mpvBit x = 12 := by rw [mpvBit_of_ne hx]; decide
    show (setMpp (setMpv regs virt).mstatus .s).getLsbD (Opensbi.mpvBit x) = virt
    rw [getLsbD_setMpp_setMpv mpvBit_lt_width, if_neg h11, if_neg h12, if_pos ⟨hx, rfl⟩]
  mode := by
    refine modeOf_eq_s ?_ ?_
    · show (setMpp (setMpv regs virt).mstatus .s).getLsbD 12 = false
      rw [getLsbD_setMpp_setMpv lt_width]
      rfl
    · show (setMpp (setMpv regs virt).mstatus .s).getLsbD 11 = true
      rw [getLsbD_setMpp_setMpv lt_width]
      rfl

/-- **The `mstatus` after a redirection to VS-mode** is that of a return. -/
theorem mret_vs (h' : Hart x) (virt : Bool) (hm : modeOf regs.mstatus ≠ .m) (mepc : Ulong x) :
    (mret h' { setMpv regs virt with
      mepc := mepc, mstatus := setMpp (setMpv regs virt).mstatus .s }).mstatus =
      (mret h regs).mstatus := by
  have hr := redirected_vs regs virt mepc
  apply BitVec.eq_of_getLsbD_eq
  intro i hi
  rw [getLsbD_mret (by rw [hr.mode]; decide) hi, getLsbD_mret hm hi]
  show (if x ≠ .rv32 ∧ i = mpvBit x then false else if i = MPRV ∨ i = 11 ∨ i = 12 then false
    else if i = MPIE then true
    else if i = MIE then (setMpp (setMpv regs virt).mstatus .s).getLsbD MPIE
    else (setMpp (setMpv regs virt).mstatus .s).getLsbD i) = _
  rw [getLsbD_setMpp_setMpv hi, getLsbD_setMpp_setMpv lt_width]
  have hmpie : ¬ (x ≠ .rv32 ∧ MPIE = mpvBit x) := by
    rintro ⟨hx, heq⟩
    rw [mpvBit_of_ne hx] at heq
    cases heq
  have h11 : ¬ MPIE = 11 := by decide
  have h12 : ¬ MPIE = 12 := by decide
  by_cases hv : x ≠ .rv32 ∧ i = mpvBit x
  · rw [if_pos hv, if_pos hv]
  · by_cases hl : i = MPRV ∨ i = 11 ∨ i = 12
    · simp only [hv, hl, if_true, if_false]
    · obtain ⟨-, hi11, hi12⟩ := not_or.mp hl |>.imp_right not_or.mp
      simp only [hv, hi11, hi12, h11, h12, hmpie, if_false]

theorem getLsbD_pushStatus_setMpv {i : Nat} (hi : i < x.width) (prevMode : Ulong x) :
    (pushStatus (setMpp (setMpv regs virt).mstatus .s) prevMode).getLsbD i =
      if i = SIE then false else if i = SPIE then regs.mstatus.getLsbD SIE
      else if i = SPP then decide (prevMode = Priv.s.val)
      else (setMpp (setMpv regs virt).mstatus .s).getLsbD i := by
  have hsie : ¬ (x ≠ .rv32 ∧ SIE = mpvBit x) := by
    rintro ⟨hx, heq⟩
    rw [mpvBit_of_ne hx] at heq
    cases heq
  rw [pushStatus_eq, getLsbD_putBit hi, getLsbD_putBit hi, getLsbD_putBit hi,
    getLsbD_setMpp_setMpv (i := SIE) lt_width, if_neg hsie]
  rfl

theorem redirected_s (regs : SbiTrapRegs x) (virt : Bool) (mepc prevMode : Ulong x) :
    Redirected regs { setMpv regs virt with
      mepc := mepc
      mstatus := pushStatus (setMpp (setMpv regs virt).mstatus .s) prevMode } virt := by
  have hvs := redirected_vs regs virt mepc
  refine ⟨hvs.gpr, hvs.mstatusH, fun hx => ?_, modeOf_eq_s ?_ ?_⟩
  · have hne : mpvBit x ≠ SIE ∧ mpvBit x ≠ SPIE ∧ mpvBit x ≠ SPP := by
      rw [mpvBit_of_ne hx]
      decide
    show (pushStatus _ prevMode).getLsbD (mpvBit x) = virt
    rw [getLsbD_pushStatus_setMpv mpvBit_lt_width, if_neg hne.1, if_neg hne.2.1, if_neg hne.2.2]
    exact hvs.mpvBit hx
  · show (pushStatus _ prevMode).getLsbD 12 = false
    rw [getLsbD_pushStatus_setMpv lt_width, getLsbD_setMpp_setMpv lt_width]
    rfl
  · show (pushStatus _ prevMode).getLsbD 11 = true
    rw [getLsbD_pushStatus_setMpv lt_width, getLsbD_setMpp_setMpv lt_width]
    rfl

theorem getLsbD_mret_of_s (hm : modeOf regs.mstatus ≠ .m) {i : Nat}
    (hs : i = SIE ∨ i = SPIE ∨ i = SPP) :
    (mret h regs).mstatus.getLsbD i = regs.mstatus.getLsbD i := by
  have hi : i < 32 := by rcases hs with rfl | rfl | rfl <;> decide
  have hv : ¬ (x ≠ .rv32 ∧ i = mpvBit x) := by
    rintro ⟨hx, heq⟩
    rw [mpvBit_of_ne hx] at heq
    rcases hs with rfl | rfl | rfl <;> cases heq
  rw [getLsbD_mret hm (lt_width hi), if_neg hv]
  rcases hs with rfl | rfl | rfl <;> rfl

/-- **The `mstatus` after a redirection to S-mode** is that of a trap taken after a return. -/
theorem mret_s (hm : modeOf regs.mstatus ≠ .m) (mepc : Ulong x) :
    (mret h' { setMpv regs virt with
      mepc := mepc
      mstatus := pushStatus (setMpp (setMpv regs virt).mstatus .s) (mpp regs.mstatus) }).mstatus =
      enterStatus (mret h regs).mstatus (modeOf regs.mstatus) := by
  have hr := redirected_s regs virt mepc (mpp regs.mstatus)
  have hm' := hr.mode.trans_ne (by decide : Priv.s ≠ .m)
  apply BitVec.eq_of_getLsbD_eq
  intro i hi
  rw [enterStatus, getLsbD_putBit hi, getLsbD_putBit hi, getLsbD_putBit hi,
    getLsbD_mret_of_s (i := SIE) hm (.inl rfl)]
  by_cases hsie : i = SIE
  · rw [getLsbD_mret_of_s hm' (.inl hsie), if_pos hsie]
    exact (getLsbD_pushStatus_setMpv hi _).trans (if_pos hsie)
  by_cases hspie : i = SPIE
  · rw [getLsbD_mret_of_s hm' (.inr (.inl hspie)), if_neg hsie, if_pos hspie]
    exact (getLsbD_pushStatus_setMpv hi _).trans ((if_neg hsie).trans (if_pos hspie))
  by_cases hspp : i = SPP
  · rw [getLsbD_mret_of_s hm' (.inr (.inr hspp)), if_neg hsie, if_neg hspie, if_pos hspp]
    refine (getLsbD_pushStatus_setMpv hi _).trans
      ((if_neg hsie).trans ((if_neg hspie).trans ((if_pos hspp).trans ?_)))
    exact decide_eq_decide.mpr (mpp_eq_s regs.mstatus)
  · have hm'' := (redirected_vs regs virt mepc).mode.trans_ne (by decide : Priv.s ≠ .m)
    rw [if_neg hsie, if_neg hspie, if_neg hspp, ← mret_vs h' virt hm mepc,
      getLsbD_mret hm' hi, getLsbD_mret hm'' hi]
    dsimp only
    rw [getLsbD_pushStatus_setMpv lt_width, getLsbD_pushStatus_setMpv hi, if_neg hsie,
      if_neg hspie, if_neg hspp]
    rfl

/-! ## The redirection -/

theorem sbiTrapRedirect_of_m (h : Hart x) (trap : SbiTrapInfo x)
    (hm : modeOf regs.mstatus = .m) :
    sbiTrapRedirect err h regs trap = (err.ENOTSUPP, h, regs) := by
  refine if_pos ⟨?_, ?_⟩
  · intro hs
    rw [(mpp_eq_s regs.mstatus).mp hs] at hm
    exact nomatch hm
  · intro hu
    rw [(mpp_eq_u regs.mstatus).mp hu] at hm
    exact nomatch hm

theorem sbiTrapRedirect_of_lower (hm : modeOf regs.mstatus ≠ .m) :
    ¬ (mpp regs.mstatus ≠ Priv.s.val ∧ mpp regs.mstatus ≠ Priv.u.val) := by
  rintro ⟨hs, hu⟩
  cases hmode : modeOf regs.mstatus with
  | u => exact hu ((mpp_eq_u regs.mstatus).mpr hmode)
  | s => exact hs ((mpp_eq_s regs.mstatus).mpr hmode)
  | m => exact hm hmode

/-- The trap goes to VS-mode. -/
def toVs (h : Hart x) (regs : SbiTrapRegs x) (trap : SbiTrapInfo x) : Bool :=
  h.misaH && mpv regs && isPageFault trap.cause

theorem sbiTrapRedirect_vs (hm : modeOf regs.mstatus ≠ .m) (hvs : toVs h regs trap = true) :
    sbiTrapRedirect err h regs trap =
      (0, { h with
          vs := h.vs.enter trap
          vsstatus := pushStatus h.vsstatus (mpp regs.mstatus) },
        { setMpv regs true with
          mepc := h.vs.tvec.val
          mstatus := setMpp (setMpv regs true).mstatus .s }) := by
  unfold toVs at hvs
  unfold sbiTrapRedirect
  simp only [sbiTrapRedirect_of_lower hm, hvs, if_false, if_true, Bool.not_true, Bool.and_false,
    Bool.false_eq_true]
  rfl

theorem sbiTrapRedirect_s (hm : modeOf regs.mstatus ≠ .m) (hvs : toVs h regs trap = false) :
    sbiTrapRedirect err h regs trap =
      (0, { (if h.misaH && mpv regs then h.pushHstatus (mpp regs.mstatus) (mpv regs) trap
            else h) with
          s := h.s.enter trap },
        { setMpv regs false with
          mepc := h.s.tvec.val
          mstatus := pushStatus (setMpp (setMpv regs false).mstatus .s) (mpp regs.mstatus) }) := by
  unfold toVs at hvs
  unfold sbiTrapRedirect
  simp only [sbiTrapRedirect_of_lower hm, hvs, if_false, Bool.not_false, Bool.and_true,
    Bool.false_eq_true]
  cases h.misaH && mpv regs with
  | true => rfl
  | false => rfl

theorem Redirected.mret_eq (hr : Redirected regs regs' virt) {status : Ulong x}
    (hstatus : (mret h' regs').mstatus = status) {t : Tvec x} (hepc : regs'.mepc = t.val) :
    mret h' regs' =
      ⟨h', regs.gpr, status, (mret h regs).mstatusH, t.base, .s, h'.misaH && virt⟩ := by
  obtain ⟨hgpr, hmode, hvirt, hH⟩ := hr.running h h'
  have hpc : (mret h' regs').pc = t.base := by
    show returnAddress h' regs'.mepc = _
    rw [hepc, returnAddress_tvec]
  rw [← hstatus, ← hgpr, ← hH, ← hpc, ← hvirt, ← hmode]
  rfl

theorem mret_virt (hm : modeOf regs.mstatus ≠ .m) : (mret h regs).virt = (h.misaH && mpv regs) := by
  show (h.misaH && mpv regs && decide (modeOf regs.mstatus ≠ .m)) = _
  rw [decide_eq_true hm, Bool.and_true]

theorem pushStatus_mpp (status : Ulong x) :
    pushStatus status (mpp regs.mstatus) = enterStatus status (modeOf regs.mstatus) := by
  rw [pushStatus_eq, enterStatus, decide_eq_decide.mpr (mpp_eq_s regs.mstatus)]

theorem agree_vs (hm : modeOf regs.mstatus ≠ .m) (hvs : toVs h regs trap = true) :
    Agree (mret (sbiTrapRedirect err h regs trap).2.1 (sbiTrapRedirect err h regs trap).2.2)
      (takeTrap (mret h regs) trap) := by
  have hcond : ((mret h regs).virt && isPageFault trap.cause) = true := by
    rw [mret_virt hm]
    exact hvs
  have hvirt : (h.misaH && true) = true := by
    rw [Bool.and_true]
    exact (Bool.and_eq_true_iff.mp (Bool.and_eq_true_iff.mp hvs).1).1
  rw [sbiTrapRedirect_vs err hm hvs, takeTrap, if_pos hcond]
  dsimp only
  rw [(redirected_vs regs true h.vs.tvec.val).mret_eq (h := h) (mret_vs (h := h) _ _ hm _) rfl,
    pushStatus_mpp]
  dsimp only
  rw [hvirt]
  rfl

theorem pushed_hstatus (trap : SbiTrapInfo x) (hm : modeOf regs.mstatus ≠ .m) :
    (if h.misaH && mpv regs then h.pushHstatus (mpp regs.mstatus) (mpv regs) trap else h).hstatus =
        (if h.misaH then (mret h regs).enterHstatus else h.hstatus) ↔
      ¬ (h.misaH = true ∧ mpv regs = false ∧ h.hstatus.getLsbD SPV = true) := by
  unfold Running.enterHstatus
  rw [mret_virt hm]
  cases hH : h.misaH with
  | false => simp
  | true =>
    cases hv : mpv regs with
    | true =>
      refine iff_of_true ?_ fun hno => Bool.noConfusion hno.2.1
      show (h.pushHstatus _ true trap).hstatus =
        putBit (putBit h.hstatus SPVP (modeOf regs.mstatus = .s)) SPV true
      rw [pushHstatus_eq, decide_eq_decide.mpr (mpp_eq_s regs.mstatus)]
    | false =>
      show h.hstatus = putBit h.hstatus SPV false ↔ _
      rw [eq_comm, putBit_eq_self_iff lt_width]
      simp

/-- **To S-mode** it is exact just when SPV does not tell of an earlier guest. -/
theorem agree_s_iff (hm : modeOf regs.mstatus ≠ .m) (hvs : toVs h regs trap = false) :
    Agree (mret (sbiTrapRedirect err h regs trap).2.1 (sbiTrapRedirect err h regs trap).2.2)
        (takeTrap (mret h regs) trap) ↔
      ¬ (h.misaH = true ∧ mpv regs = false ∧ h.hstatus.getLsbD SPV = true) := by
  have hcond : ¬ ((mret h regs).virt && isPageFault trap.cause) = true := by
    rw [mret_virt hm]
    exact Bool.eq_false_iff.mp hvs
  rw [sbiTrapRedirect_s err hm hvs, takeTrap, if_neg hcond, ← pushed_hstatus trap hm]
  dsimp only
  rw [(redirected_s regs false h.s.tvec.val (mpp regs.mstatus)).mret_eq (h := h)
    (mret_s (h := h) hm _) rfl]
  constructor
  · intro hagree
    exact congrArg (fun r => r.hart.hstatus) hagree
  · intro hstatus
    unfold Agree Running.enterS
    rw [Bool.and_false]
    dsimp only
    rw [hstatus]
    cases h.misaH && mpv regs with
    | true => rfl
    | false => rfl

/-- **Redirection.**  A redirected trap is the trap taken directly, unless it goes from a mode that
is not virtual to HS-mode while `hstatus.SPV` is set. -/
theorem redirectOk_iff (h : Hart x) (regs : SbiTrapRegs x) (trap : SbiTrapInfo x) :
    RedirectOk err h regs trap ↔
      ¬ (modeOf regs.mstatus ≠ .m ∧ h.misaH = true ∧ mpv regs = false ∧
        h.hstatus.getLsbD SPV = true) := by
  unfold RedirectOk
  by_cases hm : modeOf regs.mstatus = .m
  · have hrefused := sbiTrapRedirect_of_m err h trap hm
    refine iff_of_true ⟨fun _ => ?_, fun hret => ?_⟩ fun hno => hno.1 hm
    · rw [hrefused]
      exact ⟨err.enotsupp_ne_zero, rfl⟩
    · rw [hrefused] at hret
      exact absurd hret err.enotsupp_ne_zero
  · have hret : (sbiTrapRedirect err h regs trap).1 = 0 := by
      cases hvs : toVs h regs trap with
      | true => rw [sbiTrapRedirect_vs err hm hvs]
      | false => rw [sbiTrapRedirect_s err hm hvs]
    rw [and_iff_right fun hno => absurd hno hm, and_iff_right hm]
    cases hvs : toVs h regs trap with
    | true =>
      refine iff_of_true (fun _ => agree_vs err hm hvs) fun hno => ?_
      unfold toVs at hvs
      rw [hno.2.1, Bool.and_false] at hvs
      exact nomatch hvs
    | false =>
      rw [← agree_s_iff err hm hvs]
      exact ⟨fun hagree => hagree hret, fun hagree _ => hagree⟩

/-- The error codes as the firmware numbers them. -/
def sbiError : SbiError where
  ENOTSUPP := -2
  EINVAL := -3
  ETRAP := -1007
  enotsupp_ne_zero := by decide
  einval_ne_zero := by decide
  etrap_ne_zero := by decide
  enotsupp_ne_etrap := by decide

/-- A 64-bit hypervisor that has entered a guest before, and whose `hstatus.SPV` says so. -/
def hypervisor : Hart .rv64 where
  misaH := true
  misaC := true
  s := ⟨⟨0x80000000#64, rfl⟩, 0, 0, 0⟩
  vs := ⟨⟨0x90000000#64, rfl⟩, 0, 0, 0⟩
  vsstatus := 0
  hstatus := 0x80#64
  htval := 0
  htinst := 0

/-- A trap of the hypervisor itself seems to come from its guest. -/
theorem not_redirectOk_hypervisor :
    ¬ RedirectOk sbiError hypervisor ⟨fun _ => 0, 0x80001000#64, 0x800#64, 0⟩
      ⟨0x80001000#64, 2, 0, 0, 0⟩ := by
  intro hok
  have hm : modeOf (x := .rv64) 0x800#64 ≠ .m := by decide
  have hvs : toVs hypervisor ⟨fun _ => 0, 0x80001000#64, 0x800#64, 0⟩
      ⟨0x80001000#64, 2, 0, 0, 0⟩ = false := by decide
  refine (agree_s_iff sbiError hm hvs).mp (hok.2 ?_) ⟨rfl, by decide, by decide⟩
  rw [sbiTrapRedirect_s sbiError hm hvs]

end RealtekIpcam.Opensbi
