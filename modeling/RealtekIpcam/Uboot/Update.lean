import Mathlib.Data.Nat.Digits.Defs
import RealtekIpcam.Lib.Ram

/-!
# The update commands

An update image lies in memory as a prefix of 0x100 bytes and a row of sections, each a header of
0x20 bytes, a payload and four bytes more.  `_do_write_all_` walks it and hands each payload to
`_do_write_file_`; `do_write_for_rescure` does the same with an image without prefix after a rescue
boot; `do_update_kernel` and `do_update_dtb` write a single payload that was downloaded.

* `UpdateConfig` is what the commands use of the configuration and of the code for hexadecimal
  environment variables.  `Outcomes` says what the flash and the storage of the environment do.
* `UpdateState` is what the commands change.  Besides memory and environment it keeps what they do:
  the calls of `_do_write_file_`, the writes handed to the flash driver, the memory they read and
  the lengths of the sections they meet.  The newest entry is first.
* A loop takes its number of rounds as fuel and returns `none` when that is used up.

The functions are as for SPI flash, without `CONFIG_CRYPTO_UPDATE`, `CONFIG_CRYPTO_BOOT` and
`CONFIG_FIT`.
-/

namespace RealtekIpcam.Uboot

open Ram

/-- `CONFIG_SYS_LOAD_ADDR`. -/
def sysLoadAddr : UInt32 := 0x80400000

def rescueLinuxLoadAddr : UInt32 := 0x80ffbfe0

def cmdRetFailure : Int := 1

/-- The section magic of a device tree, `"dtb"`. -/
def magicDtb : UInt32 := 0x64746200

/-- The section magic of a kernel, `"linx"`. -/
def magicKernel : UInt32 := 0x6c696e78

/-- The magic that ends an image, `"FEOF"`. -/
def magicFileEnd : UInt32 := 0x46454f46

/-- The environment variables of the update commands. -/
inductive EnvVar where
  | dtbAddr
  | dtbOffset
  | dtbLen
  | kernelOffset
  | fileaddr
  | filesize
  deriving DecidableEq

/-- An environment: the text of each variable that is set. -/
abbrev Environment (V : Type*) := EnvVar → Option V

/-- The configuration, and the conversions between numbers and the text of a variable. -/
structure UpdateConfig (V : Type*) where
  /-- `CONFIG_FDT_ADDR`. -/
  fdtAddr : UInt32
  /-- `CONFIG_FDT_FLASH_ADDR`. -/
  fdtFlashAddr : UInt32
  /-- `CONFIG_FDT_FLASH_SIZE`. -/
  fdtFlashSize : UInt32
  /-- The text that `env_set_hex` sets. -/
  toHex : UInt32 → V
  /-- What `env_get_hex` reads from a text; `none` when it starts with no digit. -/
  ofHex : V → Option UInt32
  ofHex_toHex : ∀ n, ofHex (toHex n) = some n

/-- The digits of a number in hexadecimal, as `%lx` prints it. -/
def hexDigits (n : UInt32) : List Nat := if n = 0 then [0] else (Nat.digits 16 n.toNat).reverse

/-- The number that hexadecimal digits stand for. -/
def ofHexDigits (digits : List Nat) : Option UInt32 :=
  if digits = [] then none else some (UInt32.ofNat (Nat.ofDigits 16 digits.reverse))

theorem ofHexDigits_hexDigits (n : UInt32) : ofHexDigits (hexDigits n) = some n := by
  unfold hexDigits ofHexDigits
  by_cases hn : n = 0
  · rw [if_pos hn, hn]
    rfl
  · have hnat : n.toNat ≠ 0 := fun h => hn (UInt32.toNat_inj.mp h)
    have hne : (Nat.digits 16 n.toNat).reverse ≠ [] := by
      rw [Ne, List.reverse_eq_nil_iff, Nat.digits_eq_nil_iff_eq_zero]
      exact hnat
    rw [if_neg hn, if_neg hne, List.reverse_reverse, Nat.ofDigits_digits, UInt32.ofNat_toNat]

/-- A configuration whose texts are hexadecimal digits, with the addresses that the comments of the
source give. -/
def hexConfig : UpdateConfig (List Nat) where
  fdtAddr := 0x8775af00
  fdtFlashAddr := 0x80000
  fdtFlashSize := 0x10000
  toHex := hexDigits
  ofHex := ofHexDigits
  ofHex_toHex := ofHexDigits_hexDigits

/-- What the flash driver returns for each write of the command, and whether `env_save` works. -/
structure Outcomes where
  flashWrite : Nat → Int
  envSave : Bool

/-- The arguments of a call of `_do_write_file_`, with the bytes at `loadaddr` in its place. -/
structure FileCall where
  offset : UInt32
  data : List UInt8
  len : UInt32
  partitionSize : UInt32
  magicNum : UInt32
  deriving DecidableEq

/-- A write handed to the flash driver. -/
structure FlashWrite where
  offset : UInt32
  len : UInt32
  data : List UInt8
  partitionSize : UInt32
  deriving DecidableEq

/-- Bytes that were read: where and how many. -/
structure Access where
  addr : UInt32
  len : Nat
  deriving DecidableEq

/-- What the update commands change. -/
structure UpdateState (V : Type*) where
  ram : Memory
  env : Environment V
  /-- The environment as last saved. -/
  saved : Environment V
  /-- The global `dtb_len`. -/
  dtbLen : UInt32
  calls : List FileCall
  flashWrites : List FlashWrite
  accesses : List Access
  sections : List UInt32

def UpdateState.start {V : Type*} (ram : Memory) (env saved : Environment V) (dtbLen : UInt32) :
    UpdateState V :=
  ⟨ram, env, saved, dtbLen, [], [], [], []⟩

variable {V : Type*} (c : UpdateConfig V) (o : Outcomes) (s : UpdateState V)

/-! ## Environment and memory -/

namespace UpdateConfig

def envGetHex (env : Environment V) (name : EnvVar) (default : UInt32) : UInt32 :=
  ((env name).bind c.ofHex).getD default

/-- Where the device tree goes in memory. -/
def dtbAddr (env : Environment V) : UInt32 := c.envGetHex env .dtbAddr c.fdtAddr

/-- Where the device tree is in flash. -/
def dtbOffset (env : Environment V) : UInt32 := c.envGetHex env .dtbOffset c.fdtFlashAddr

end UpdateConfig

namespace UpdateState

/-- `env_set`; `none` stands for `NULL` and unsets the variable. -/
def envSet (name : EnvVar) (value : Option V) : UpdateState V :=
  { s with env := Function.update s.env name value }

def envSetHex (name : EnvVar) (value : UInt32) : UpdateState V :=
  s.envSet name (some (c.toHex value))

def envSave : UpdateState V := if o.envSave then { s with saved := s.env } else s

def memcpy (dst src : UInt32) (n : UInt32) : UpdateState V :=
  { s with ram := copy s.ram dst src n.toNat, accesses := ⟨src, n.toNat⟩ :: s.accesses }

end UpdateState

def doWriteFile (offset len loadaddr partitionSize magicNum : UInt32) : Int × UpdateState V :=
  let data := readBytes s.ram loadaddr len.toNat
  let s := { s with calls := ⟨offset, data, len, partitionSize, magicNum⟩ :: s.calls }
  if len = 0 then (cmdRetFailure, s)
  else
    let partitionSize := if partitionSize = 0 then len else partitionSize
    let ret := o.flashWrite s.flashWrites.length
    let s := { s with
      flashWrites := ⟨offset, len, data, partitionSize⟩ :: s.flashWrites
      accesses := ⟨loadaddr, len.toNat⟩ :: s.accesses }
    (ret, s.envSet .fileaddr none)

/-! ## Sections -/

/-- `htonl(GETMEM(addr))`. -/
def getmem (ram : Memory) (addr : UInt32) : UInt32 := Words.htonl (word ram addr)

/-- The words that the writers use of a section header. -/
structure Header where
  magicNum : UInt32
  partitionSize : UInt32
  flashOffset : UInt32
  filelen : UInt32
  deriving DecidableEq

def header (ram : Memory) (addr : UInt32) : Header :=
  ⟨getmem ram addr, getmem ram (addr + 0x0c), getmem ram (addr + 0x14), getmem ram (addr + 0x1c)⟩

def readHeader (addr : UInt32) : UpdateState V :=
  { s with
    accesses := ⟨addr + 0x1c, 4⟩ :: ⟨addr + 0x14, 4⟩ :: ⟨addr + 0x0c, 4⟩ :: ⟨addr, 4⟩ :: s.accesses
    sections := (header s.ram addr).filelen :: s.sections }

/-- What both writers do first with a device tree: remember where it is in flash. -/
def setDtbOffset (flashOffset : UInt32) : UpdateState V :=
  if c.dtbOffset s.env ≠ flashOffset then (s.envSetHex c .dtbOffset flashOffset).envSave o else s

/-- One round of a writer's loop, for the section at `addr`: what the writer returns, if it does,
and the length of the section.  The writers differ in what `dtb` does with the header and the
payload of a device tree before it is written; all other magic numbers but that of the end are only
printed. -/
def sectionRound (dtb : UpdateState V → Header → UInt32 → UpdateState V) (addr : UInt32) :
    Option Int × UInt32 × UpdateState V :=
  let h := header s.ram addr
  let s := readHeader s addr
  if h.magicNum = magicFileEnd then (some 0, h.filelen, s)
  else
    let s := if h.magicNum = magicDtb then dtb s h (addr + 0x20) else s
    let r := doWriteFile o s h.flashOffset h.filelen (addr + 0x20) h.partitionSize h.magicNum
    if r.1 ≠ 0 then (some r.1, h.filelen, r.2) else (none, h.filelen, r.2)

/-- What `_do_write_all_` does with a device tree before it is written. -/
def writeAllDtb (h : Header) (loadaddr : UInt32) : UpdateState V :=
  let s := setDtbOffset c o s h.flashOffset
  let s := s.memcpy (c.dtbAddr s.env) loadaddr h.filelen
  (s.envSetHex c .dtbLen h.filelen).envSave o

/-- The loop of `_do_write_all_`. -/
def writeAllLoop : Nat → UInt32 → UInt32 → UpdateState V → Option (Int × UpdateState V)
  | 0, _, _, _ => none
  | fuel + 1, allLen, ramOffset, s =>
    if allLen = 0 then some (0, s)
    else match sectionRound o s (writeAllDtb c o) (sysLoadAddr + ramOffset) with
      | (some ret, _, s) => some (ret, s)
      | (none, filelen, s) =>
        writeAllLoop fuel (allLen - (filelen + 0x24)) (ramOffset + (filelen + 0x24)) s

def doWriteAll (fuel : Nat) (allLen : UInt32) : Option (Int × UpdateState V) :=
  writeAllLoop c o fuel (allLen - 0x100) 0x100 s

/-- What `do_write_for_rescure` does with a device tree before it is written. -/
def rescureDtb (h : Header) (loadaddr : UInt32) : UpdateState V :=
  let s := setDtbOffset c o s h.flashOffset
  s.memcpy (c.dtbAddr s.env) loadaddr h.filelen

/-- The loop of `do_write_for_rescure`. -/
def rescureLoop : Nat → UInt32 → UpdateState V → Option (Int × UpdateState V)
  | 0, _, _ => none
  | fuel + 1, ramOffset, s =>
    match sectionRound o s (rescureDtb c o) (rescueLinuxLoadAddr + ramOffset) with
    | (some ret, _, s) => some (ret, s)
    | (none, filelen, s) => rescureLoop fuel (ramOffset + (filelen + 0x24)) s

def doWriteForRescure (fuel : Nat) : Option (Int × UpdateState V) := rescureLoop c o fuel 0 s

/-! ## `do_update_kernel` and `do_update_dtb` -/

/-- How a command gets its payload, and what that leaves in memory. -/
inductive Transfer where
  /-- `do_dfu` with what it returns, and `dfu_all_len`. -/
  | dfu (ret : Int) (ram : Memory) (len : UInt32)
  /-- `net_loop(TFTPSRV)` with what it returns, and the size of the file. -/
  | tftp (ret : Int) (ram : Memory) (size : UInt32)

/-- `_do_get_file_`: the length of the file, 0 when the transfer fails. -/
def doGetFile (ret : Int) (ram : Memory) (size : UInt32) : UInt32 × UpdateState V :=
  if ret < 0 then (0, { s with ram := ram })
  else
    let s := { s with ram := ram }.envSetHex c .filesize size
    (c.envGetHex s.env .filesize 0, s.envSet .filesize none)

/-- The first part of both commands; `none` when they return because of `do_dfu`. -/
def getPayload : Transfer → Option (UInt32 × UpdateState V)
  | .dfu ret ram len => if ret ≠ 0 then none else some (len, { s with ram := ram })
  | .tftp ret ram size => some (doGetFile c s ret ram size)

/-- The look-up of a partition in the device tree, by `_do_get_offset` or `_do_get_size`: whether
the device tree in memory is unusable, so that it is loaded from flash first, what that leaves in
memory, and the result. -/
structure Lookup where
  reload : Bool
  ram : Memory
  value : UInt32

/-- `_do_get_offset` and `_do_get_size`.  Loading the device tree rounds `dtb_len` up to a multiple
of 8. -/
def doGetPartition (l : Lookup) : UInt32 × UpdateState V :=
  if l.reload then
    let dtbLen := if s.dtbLen % 8 ≠ 0 then s.dtbLen / 8 * 8 + 8 else s.dtbLen
    (l.value, { s with ram := l.ram, dtbLen := dtbLen })
  else (l.value, s)

def doUpdateKernel (offset size : Lookup) (transfer : Transfer) : Int × UpdateState V :=
  let (offset, s) := doGetPartition s offset
  let (size, s) := doGetPartition s size
  if offset = 0 ∨ size = 0 then (1, s)
  else match getPayload c s transfer with
    | none => (cmdRetFailure, s)
    | some (len, s) =>
      let (ret, s) := doWriteFile o s offset len sysLoadAddr size 0
      (ret, s.envSetHex c .kernelOffset offset)

def doUpdateDtb (transfer : Transfer) (lookup : Lookup) : Int × UpdateState V :=
  let dtbAddr := c.dtbAddr s.env
  match getPayload c s transfer with
  | none => (cmdRetFailure, s)
  | some (len, s) =>
    let s := { s with dtbLen := len }
    let s := s.memcpy dtbAddr sysLoadAddr s.dtbLen
    let dtbOffset := c.dtbOffset s.env
    let (offset, s) := doGetPartition s lookup
    let set := offset ≠ 0 ∧ offset ≠ dtbOffset
    let dtbOffset := if set then offset else dtbOffset
    let s := if set then s.envSetHex c .dtbOffset offset else s
    let s := (s.envSetHex c .dtbLen s.dtbLen).envSave o
    doWriteFile o s dtbOffset s.dtbLen sysLoadAddr c.fdtFlashSize 0

end RealtekIpcam.Uboot
