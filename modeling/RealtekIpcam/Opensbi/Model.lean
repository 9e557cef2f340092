import RealtekIpcam.Lib.BitField

/-!
# A hart under OpenSBI

The firmware runs in M-mode and handles the traps of the lower modes.  The assembly entry saves the
general registers with `mepc` and `mstatus` in a `struct sbi_trap_regs`, the C code changes that
record and the CSRs of S-mode, and the way back restores the record and executes `mret`.

The firmware is built for 32 or 64 bits, and the hart may or may not have the hypervisor extension,
which is looked up in `misa`.  `mstatus.MPV` has its place in `mstatush` on a 32-bit hart.
-/

namespace RealtekIpcam.Opensbi

open BitField

/-- `__riscv_xlen`. -/
inductive Xlen where
  | rv32
  | rv64
  deriving DecidableEq

/-- The number of bits of a register. -/
def Xlen.width : Xlen → Nat
  | .rv32 => 32
  | .rv64 => 64

/-- An `unsigned long`. -/
abbrev Ulong (x : Xlen) := BitVec x.width

/-- The error codes that the firmware's functions return.  They are not zero, and `SBI_ETRAP`, by
which a handler asks for a trap in the caller, is no other error. -/
structure SbiError where
  ENOTSUPP : Int
  EINVAL : Int
  ETRAP : Int
  enotsupp_ne_zero : ENOTSUPP ≠ 0
  einval_ne_zero : EINVAL ≠ 0
  etrap_ne_zero : ETRAP ≠ 0
  enotsupp_ne_etrap : ENOTSUPP ≠ ETRAP

/-- The general registers, by number. -/
abbrev Gpr := Fin 32

def a0 : Gpr := 10
def a1 : Gpr := 11
def a6 : Gpr := 16
def a7 : Gpr := 17

structure SbiTrapRegs (x : Xlen) where
  gpr : Gpr → Ulong x
  mepc : Ulong x
  mstatus : Ulong x
  mstatusH : Ulong x

structure SbiTrapInfo (x : Xlen) where
  epc : Ulong x
  cause : Ulong x
  tval : Ulong x
  tval2 : Ulong x
  tinst : Ulong x

/-- A trap vector register.  Its two low bits are the mode, direct or vectored; the other two modes
are reserved. -/
structure Tvec (x : Xlen) where
  val : Ulong x
  mode : val.getLsbD 1 = false

/-- The trap CSRs of S-mode or of VS-mode. -/
structure TrapCsrs (x : Xlen) where
  tvec : Tvec x
  epc : Ulong x
  cause : Ulong x
  tval : Ulong x

/-- The CSRs of a hart that traps into S-mode use, but for `mstatus`.  The first two fields say
which extensions the hart has: the hypervisor extension, and the one for 16-bit instructions, with
which an instruction may start at any even address. -/
structure Hart (x : Xlen) where
  misaH : Bool
  misaC : Bool
  s : TrapCsrs x
  vs : TrapCsrs x
  vsstatus : Ulong x
  hstatus : Ulong x
  htval : Ulong x
  htinst : Ulong x

/-! ## Fields of the status registers -/

def SIE : Nat := 1
def MIE : Nat := 3
def SPIE : Nat := 5
def MPIE : Nat := 7
def SPP : Nat := 8
def MPP_SHIFT : Nat := 11
def MPRV : Nat := 17
def SPV : Nat := 7
def SPVP : Nat := 8

/-- The previous mode of a trap into M-mode. -/
inductive Priv where
  | u
  | s
  | m
  deriving DecidableEq

section Status

variable {x : Xlen}

/-- `mstatus & MSTATUS_MPP`, shifted down. -/
def mpp (mstatus : Ulong x) : Ulong x := (mstatus &&& 3#x.width <<< MPP_SHIFT) >>> MPP_SHIFT

/-- `PRV_U`, `PRV_S` and `PRV_M`. -/
def Priv.val : Priv → Ulong x
  | .u => 0#x.width
  | .s => 1#x.width
  | .m => 3#x.width

/-- Replace `mstatus.MPP`. -/
def setMpp (mstatus : Ulong x) (mode : Priv) : Ulong x :=
  mstatus &&& ~~~(3#x.width <<< MPP_SHIFT) ||| mode.val <<< MPP_SHIFT

/-- `MSTATUSH_MPV` and `MSTATUS_MPV`, as bits. -/
def mpvBit : Xlen → Nat
  | .rv32 => 7
  | .rv64 => 39

/-- Whether `mstatus.MPV` is set. -/
def mpv (regs : SbiTrapRegs x) : Bool :=
  if x = .rv32 then regs.mstatusH &&& 1#x.width <<< mpvBit x ≠ 0#x.width
  else regs.mstatus &&& 1#x.width <<< mpvBit x ≠ 0#x.width

/-- Replace `mstatus.MPV`. -/
def setMpv (regs : SbiTrapRegs x) (virt : Bool) : SbiTrapRegs x :=
  if x = .rv32 then { regs with mstatusH := putBit regs.mstatusH (mpvBit x) virt }
  else { regs with mstatus := putBit regs.mstatus (mpvBit x) virt }

end Status

end RealtekIpcam.Opensbi
