import RealtekIpcam.Lib.NorFlash
import RealtekIpcam.Lib.Words

/-!
# The redundant environment in SPI flash

U-Boot keeps two copies of its environment, each with a CRC and a flags byte.  `env_sf_save`
replaces the copy that is not in use and then marks the other one obsolete; `env_sf_load` reads both
and imports the one that `env_import_redund` chooses.

* `EnvTable` is what this code uses of the hash table and of `crc32`, which are not part of it.
* `EnvT` is `env_t`, and `EnvT.ofBytes` the cast of a read buffer to it.
* A save is described by the byte operations it issues, so that a power cut can be put between any
  two of them.  What the calls of the function return is a parameter (`SaveCalls`, `LoadCalls`);
  a flash command that fails has done a part of its operations.

`env_sf_load` after a rescue boot, where it also copies a new image into the flash, is left out.
-/

namespace RealtekIpcam.Uboot

open NorFlash

def EIO : Int := 5
def ENOMEM : Int := 12
def ENOMSG : Int := 42

/-! ## The copies -/

/-- `sizeof(crc) + sizeof(flags)` in `env_t`. -/
def envHeaderSize : Nat := 5

/-- `offsetof(env_t, flags)`. -/
def flagsOffset : Nat := 4

def envRedundActive : UInt8 := 1

def envRedundObsolete : UInt8 := 0

/-- `env_t` with `CONFIG_SYS_REDUNDAND_ENVIRONMENT`. -/
structure EnvT where
  crc : UInt32
  flags : UInt8
  data : List UInt8
  deriving DecidableEq

/-- The layout of `env_t` in memory and in flash. -/
def EnvT.bytes (ep : EnvT) : List UInt8 := Words.leBytes ep.crc ++ ep.flags :: ep.data

/-- The cast of a buffer to `env_t *`; a buffer is never shorter than the header. -/
def EnvT.ofBytes : List UInt8 → EnvT
  | b₀ :: b₁ :: b₂ :: b₃ :: flags :: data => ⟨Words.le32 b₀ b₁ b₂ b₃, flags, data⟩
  | _ => ⟨0, 0, []⟩

@[simp] theorem EnvT.ofBytes_bytes (ep : EnvT) : EnvT.ofBytes ep.bytes = ep := by
  show EnvT.mk (Words.le32 _ _ _ _) ep.flags ep.data = ep
  rw [Words.le32_bytes]

theorem EnvT.length_bytes (ep : EnvT) : ep.bytes.length = envHeaderSize + ep.data.length := by
  show ep.data.length + 1 + 1 + 1 + 1 + 1 = 5 + ep.data.length
  omega

/-- `DIV_ROUND_UP(CONFIG_ENV_SIZE, CONFIG_ENV_SECT_SIZE) * CONFIG_ENV_SECT_SIZE`, the span that a
save erases. -/
def eraseSize (envSize sectSize : Nat) : Nat := (envSize + sectSize - 1) / sectSize * sectSize

/-- A save erases the whole environment. -/
theorem le_eraseSize (envSize : Nat) {sectSize : Nat} (hpos : 0 < sectSize) :
    envSize ≤ eraseSize envSize sectSize := by
  have hdiv := Nat.div_add_mod (envSize + sectSize - 1) sectSize
  have hmod := Nat.mod_lt (envSize + sectSize - 1) hpos
  unfold eraseSize
  rw [Nat.mul_comm]
  omega

/-- The configuration of the two copies: the spans that their saves erase do not overlap. -/
structure SfConfig where
  /-- `CONFIG_ENV_OFFSET`. -/
  offset : Nat
  /-- `CONFIG_ENV_OFFSET_REDUND`. -/
  offsetRedund : Nat
  /-- `CONFIG_ENV_SIZE`. -/
  envSize : Nat
  /-- `CONFIG_ENV_SECT_SIZE`. -/
  sectSize : Nat
  header_le : envHeaderSize ≤ envSize
  sectSize_pos : 0 < sectSize
  disjoint : offset + eraseSize envSize sectSize ≤ offsetRedund ∨
    offsetRedund + eraseSize envSize sectSize ≤ offset

/-- `ENV_SIZE`, the size of the data in a copy. -/
def SfConfig.dataSize (c : SfConfig) : Nat := c.envSize - envHeaderSize

/-- What the environment code uses of the hash table and of the checksum.  An environment that
`hexport_r` can write into the data of a copy is the one that `himport_r` reads from it. -/
structure EnvTable (E : Type*) where
  crc32 : List UInt8 → UInt32
  /-- `hexport_r` into a buffer of the given size; `none` when the environment does not fit. -/
  hexport : Nat → E → Option (List UInt8)
  /-- `himport_r` into an empty table; `none` when it returns 0. -/
  himport : List UInt8 → Option E
  /-- `default_environment`. -/
  default : E
  hexport_length : ∀ {n e d}, hexport n e = some d → d.length = n
  himport_hexport : ∀ {n e d}, hexport n e = some d → himport d = some e

inductive EnvValid where
  | invalid
  | valid
  | redund
  deriving DecidableEq

/-- The flash, the environment in memory and what the code keeps about it. -/
structure Board (E : Type*) where
  flash : Flash
  /-- `env_htab`. -/
  htab : E
  /-- `gd->env_valid`. -/
  envValid : EnvValid
  /-- `env_flags`. -/
  envFlags : UInt8

variable {E : Type*} (c : SfConfig) (T : EnvTable E)

/-! ## `env/common.c` -/

def envSetDefault (b : Board E) : Board E := { b with htab := T.default }

/-- The comparison of the stored CRC with the data. -/
def crcOk (ep : EnvT) : Bool := T.crc32 ep.data = ep.crc

def envImport (ep : EnvT) (check : Bool) (b : Board E) : Int × Board E :=
  if check && !crcOk T ep then (-ENOMSG, envSetDefault T b)
  else match T.himport ep.data with
    | some e => (0, { b with htab := e })
    | none => (- EIO, envSetDefault T b)

/-- The choice of `env_import_redund` between two copies with correct CRCs, by their flags. -/
def checkSerial (flags1 flags2 : UInt8) : EnvValid :=
  if flags1 = 255 ∧ flags2 = 0 then .redund
  else if flags2 = 255 ∧ flags1 = 0 then .valid
  else if flags1 > flags2 then .valid
  else if flags2 > flags1 then .redund
  else .valid

def envImportRedund (buf1 : List UInt8) (buf1ReadFail : Bool) (buf2 : List UInt8)
    (buf2ReadFail : Bool) (b : Board E) : Int × Board E :=
  let tmpEnv1 := EnvT.ofBytes buf1
  let tmpEnv2 := EnvT.ofBytes buf2
  if buf1ReadFail && buf2ReadFail then (- EIO, envSetDefault T b)
  else if !buf1ReadFail && buf2ReadFail then envImport T tmpEnv1 true { b with envValid := .valid }
  else if buf1ReadFail && !buf2ReadFail then envImport T tmpEnv2 true { b with envValid := .redund }
  else
    let crc1Ok := crcOk T tmpEnv1
    let crc2Ok := crcOk T tmpEnv2
    if !crc1Ok && !crc2Ok then (-ENOMSG, envSetDefault T b)
    else
      let envValid :=
        if crc1Ok && !crc2Ok then .valid
        else if !crc1Ok && crc2Ok then .redund
        else checkSerial tmpEnv1.flags tmpEnv2.flags
      let ep := if envValid = .valid then tmpEnv1 else tmpEnv2
      envImport T ep false { b with envValid := envValid, envFlags := ep.flags }

/-- `env_export`: the serial number is counted up, and `none` is returned when the environment does
not fit. -/
def envExport (b : Board E) : Option (EnvT × Board E) :=
  match T.hexport c.dataSize b.htab with
  | none => none
  | some data =>
    let envFlags := b.envFlags + 1
    some (⟨T.crc32 data, envFlags, data⟩, { b with envFlags := envFlags })

/-! ## `env/sf.c` -/

/-- The result of a flash command, and how many of its byte operations were done when it failed. -/
structure CmdResult where
  ret : Int
  done : Nat

/-- The byte operations of a sequence of flash commands of which the first that fails is the last
one issued, and its result. -/
def issue : List (List ByteOp × CmdResult) → List ByteOp × Int
  | [] => ([], 0)
  | (ops, r) :: cmds =>
    if r.ret ≠ 0 then (ops.take r.done, r.ret)
    else
      let rest := issue cmds
      (ops ++ rest.1, rest.2)

/-- What the calls of `env_sf_save` return. -/
structure SaveCalls where
  setupFlashDevice : Int
  memalign : Bool
  spiFlashRead : Int
  spiFlashErase : CmdResult
  /-- The write of the new copy. -/
  spiFlashWriteEnv : CmdResult
  /-- The write of the rest of the sector. -/
  spiFlashWriteSaved : CmdResult
  /-- The write of the flags of the old copy. -/
  spiFlashWriteFlag : CmdResult

/-- What `env_sf_save` returns, the operations it issues, and the board apart from the flash. -/
structure Save (E : Type*) where
  ret : Int
  ops : List ByteOp
  board : Board E

/-- The flash commands of `env_sf_save`: erase, write the new copy, write the rest of the sector
back, mark the old copy obsolete. -/
def saveCommands (calls : SaveCalls) (flash : Flash) (envNewOffset envOffset : Nat)
    (envNew : EnvT) : List (List ByteOp × CmdResult) :=
  let savedSize := c.sectSize - c.envSize
  let savedOffset := envNewOffset + c.envSize
  let savedBuffer := readBytes flash savedOffset savedSize
  (eraseOps envNewOffset (eraseSize c.envSize c.sectSize), calls.spiFlashErase) ::
    (programOps envNewOffset envNew.bytes, calls.spiFlashWriteEnv) ::
    ((if c.sectSize > c.envSize then [(programOps savedOffset savedBuffer,
      calls.spiFlashWriteSaved)] else []) ++
    [(programOps (envOffset + flagsOffset) [envRedundObsolete], calls.spiFlashWriteFlag)])

/-- `env_sf_save` with `CONFIG_ENV_OFFSET_REDUND`. -/
def envSfSave (calls : SaveCalls) (b : Board E) : Save E :=
  if calls.setupFlashDevice ≠ 0 then ⟨calls.setupFlashDevice, [], envSetDefault T b⟩
  else match envExport c T b with
    | none => ⟨- EIO, [], b⟩
    | some (envNew, b) =>
      let envNew := { envNew with flags := envRedundActive }
      let offsets :=
        if b.envValid = .valid then (c.offsetRedund, c.offset) else (c.offset, c.offsetRedund)
      if c.sectSize > c.envSize ∧ !calls.memalign then ⟨-ENOMEM, [], b⟩
      else if c.sectSize > c.envSize ∧ calls.spiFlashRead ≠ 0 then ⟨calls.spiFlashRead, [], b⟩
      else
        let r := issue (saveCommands c calls b.flash offsets.1 offsets.2 envNew)
        if r.2 ≠ 0 then ⟨r.2, r.1, b⟩
        else
          let envValid := if b.envValid = .redund then .valid else .redund
          ⟨0, r.1, { b with envValid := envValid }⟩

/-- What the calls of `env_sf_load` return. -/
structure LoadCalls where
  memalign : Bool
  setupFlashDevice : Int
  spiFlashRead1 : Int
  spiFlashRead2 : Int

/-- `env_sf_load` with `CONFIG_ENV_OFFSET_REDUND`, after a normal boot. -/
def envSfLoad (calls : LoadCalls) (b : Board E) : Int × Board E :=
  if !calls.memalign then (- EIO, envSetDefault T b)
  else if calls.setupFlashDevice ≠ 0 then (calls.setupFlashDevice, envSetDefault T b)
  else
    envImportRedund T (readBytes b.flash c.offset c.envSize) (calls.spiFlashRead1 ≠ 0)
      (readBytes b.flash c.offsetRedund c.envSize) (calls.spiFlashRead2 ≠ 0) b

end RealtekIpcam.Uboot
