import RealtekIpcam.Lib.Ram
import RealtekIpcam.Uboot.EnvCrash

/-!
# What a save that returns 0 has done

`env_sf_save` exists with two copies of the environment and with one, and both share the exit `done`
for what fails and what does not.  Here they are with their calls of `flash_unlock` and `flash_lock`
and for any sizes, and so is `self_copy`, which writes a rescue image.

A save that returns 0 should have stored the environment, and what unlocks the flash should lock it.
The save of two copies keeps to this.  The save of one copy returns 0, the result of
`setup_flash_device`, when its allocation fails; and `self_copy` returns with the flash unlocked
when its erase or its first write fails.
-/

namespace RealtekIpcam.Uboot

open NorFlash

/-! ## The configuration -/

/-- The place and size of the copies, without anything that makes them sensible. -/
structure EnvLayout where
  /-- `CONFIG_ENV_OFFSET`. -/
  offset : Nat
  /-- `CONFIG_ENV_OFFSET_REDUND`. -/
  offsetRedund : Nat
  /-- `CONFIG_ENV_SIZE`. -/
  envSize : Nat
  /-- `CONFIG_ENV_SECT_SIZE`. -/
  sectSize : Nat
  envSize_pos : 0 < envSize
  sectSize_pos : 0 < sectSize

/-- `env_t` without `CONFIG_SYS_REDUNDAND_ENVIRONMENT`. -/
structure PlainEnvT where
  crc : UInt32
  data : List UInt8
  deriving DecidableEq

/-- The layout of this `env_t` in memory and in flash. -/
def PlainEnvT.bytes (ep : PlainEnvT) : List UInt8 := Words.leBytes ep.crc ++ ep.data

/-- A call of `flash->flash_unlock` or `flash->flash_lock`. -/
inductive LockCall where
  | unlock | lock
  deriving DecidableEq

/-- What a save does, with its lock calls. -/
structure LockedSave (E : Type*) extends Save E where
  locks : List LockCall

def LockedSave.flash {E : Type*} (save : LockedSave E) (f : Flash) : Flash := run f save.ops

/-- What unlocks the flash locks it before it returns. -/
def Relocked (locks : List LockCall) : Prop :=
  LockCall.unlock ∈ locks → locks.getLast? = some .lock
  deriving Decidable

/-! ## `env_sf_save` -/

namespace EnvLayout

variable {E : Type*} (c : EnvLayout) (T : EnvTable E)

/-- `env_export` with `CONFIG_SYS_REDUNDAND_ENVIRONMENT`. -/
def envExport (b : Board E) : Option (EnvT × Board E) :=
  match T.hexport (c.envSize - envHeaderSize) b.htab with
  | none => none
  | some data =>
    let envFlags := b.envFlags + 1
    some (⟨T.crc32 data, envFlags, data⟩, { b with envFlags := envFlags })

/-- `env_export` without; the header is the checksum only. -/
def envExportPlain (b : Board E) : Option PlainEnvT :=
  (T.hexport (c.envSize - 4) b.htab).map fun data => ⟨T.crc32 data, data⟩

/-- The flash commands that replace a copy: erase, write the new copy, write the rest of the sector
back. -/
def replaceCommands (calls : SaveCalls) (flash : Flash) (offset : Nat) (envNew : List UInt8) :
    List (List ByteOp × CmdResult) :=
  let savedSize := c.sectSize - c.envSize
  let savedOffset := offset + c.envSize
  let savedBuffer := readBytes flash savedOffset savedSize
  (eraseOps offset (eraseSize c.envSize c.sectSize), calls.spiFlashErase) ::
    (programOps offset (envNew.take c.envSize), calls.spiFlashWriteEnv) ::
    if c.sectSize > c.envSize then [(programOps savedOffset savedBuffer, calls.spiFlashWriteSaved)]
    else []

/-- `env_new_offset` and `env_offset`. -/
def saveOffsets (b : Board E) : Nat × Nat :=
  if b.envValid = .valid then (c.offsetRedund, c.offset) else (c.offset, c.offsetRedund)

/-- `env_sf_save` with `CONFIG_ENV_OFFSET_REDUND`.  The first two returns leave `done` out. -/
def envSfSaveRedund (calls : SaveCalls) (b : Board E) : LockedSave E :=
  if calls.setupFlashDevice ≠ 0 then ⟨⟨calls.setupFlashDevice, [], envSetDefault T b⟩, []⟩
  else match c.envExport T b with
    | none => ⟨⟨- EIO, [], b⟩, []⟩
    | some (envNew, b) =>
      let envNew := { envNew with flags := envRedundActive }
      let offsets := c.saveOffsets b
      if c.sectSize > c.envSize ∧ !calls.memalign then ⟨⟨-ENOMEM, [], b⟩, [.lock]⟩
      else if c.sectSize > c.envSize ∧ calls.spiFlashRead ≠ 0 then
        ⟨⟨calls.spiFlashRead, [], b⟩, [.lock]⟩
      else
        let r := issue (c.replaceCommands calls b.flash offsets.1 envNew.bytes ++
          [(programOps (offsets.2 + flagsOffset) [envRedundObsolete], calls.spiFlashWriteFlag)])
        if r.2 ≠ 0 then ⟨⟨r.2, r.1, b⟩, [.unlock, .lock]⟩
        else
          let envValid := if b.envValid = .redund then .valid else .redund
          ⟨⟨0, r.1, { b with envValid := envValid }⟩, [.unlock, .lock]⟩

/-- `env_sf_save` without.  The field `memalign` is the result of its `malloc`; when that fails,
`ret` is what `setup_flash_device` returned.  A save that succeeds calls `flash_lock` twice. -/
def envSfSavePlain (calls : SaveCalls) (b : Board E) : LockedSave E :=
  if calls.setupFlashDevice ≠ 0 then ⟨⟨calls.setupFlashDevice, [], envSetDefault T b⟩, []⟩
  else if c.sectSize > c.envSize ∧ !calls.memalign then
    ⟨⟨calls.setupFlashDevice, [], b⟩, [.lock]⟩
  else if c.sectSize > c.envSize ∧ calls.spiFlashRead ≠ 0 then
    ⟨⟨calls.spiFlashRead, [], b⟩, [.lock]⟩
  else match c.envExportPlain T b with
    | none => ⟨⟨1, [], b⟩, [.lock]⟩
    | some envNew =>
      let r := issue (c.replaceCommands calls b.flash c.offset envNew.bytes)
      if r.2 ≠ 0 then ⟨⟨r.2, r.1, b⟩, [.unlock, .lock]⟩
      else ⟨⟨0, r.1, b⟩, [.unlock, .lock, .lock]⟩

end EnvLayout

/-- With two copies whose saves do not overlap this is the save that was described before. -/
def SfConfig.layout (c : SfConfig) : EnvLayout where
  offset := c.offset
  offsetRedund := c.offsetRedund
  envSize := c.envSize
  sectSize := c.sectSize
  envSize_pos := Nat.lt_of_lt_of_le (by decide) c.header_le
  sectSize_pos := c.sectSize_pos

/-! ## `self_copy` -/

/-- `RESCUE_UBOOT1_2_LOAD_ADDR` and the other constants of the rescue image. -/
def rescueUboot12LoadAddr : UInt32 := 0x19000000
def rescueUboot12LoadSize : Nat := 0x4000
def rescueUboot3LoadAddr : UInt32 := 0x81000000
def rescueUboot3LoadSize : Nat := 0x5c000
def rescueBinLength : Nat := 0x60000
def rescueFlashOffset : Nat := 0
def rescueUboot3FlashOffset : Nat := rescueUboot12LoadSize

/-- The magic of the first section of a system image. -/
def magicUboot : UInt32 := 0x626f6f74

/-- What the flash commands of `self_copy` return. -/
structure CopyCalls where
  spiFlashErase : CmdResult
  /-- The write of the first two parts. -/
  spiFlashWrite12 : CmdResult
  /-- The write of the third part. -/
  spiFlashWrite3 : CmdResult

/-- The byte operations of a command that were done. -/
def CmdResult.opsDone (r : CmdResult) (ops : List ByteOp) : List ByteOp :=
  if r.ret ≠ 0 then ops.take r.done else ops

/-- `self_copy`: the byte operations and lock calls that it makes itself.  Its `ret` is a `u8`.

For a system image it leaves the writing to `do_write_for_rescure`. -/
def selfCopy (calls : CopyCalls) (ram : Ram.Memory) : List ByteOp × List LockCall :=
  let magicNum := Words.htonl (Ram.word ram rescueUboot12LoadAddr)
  if magicNum ≠ magicUboot then
    let erase := calls.spiFlashErase.opsDone (eraseOps rescueFlashOffset rescueBinLength)
    if UInt8.ofInt calls.spiFlashErase.ret ≠ 0 then (erase, [.unlock])
    else
      let write12 := calls.spiFlashWrite12.opsDone (programOps rescueFlashOffset
        (Ram.readBytes ram rescueUboot12LoadAddr rescueUboot12LoadSize))
      if UInt8.ofInt calls.spiFlashWrite12.ret ≠ 0 then (erase ++ write12, [.unlock])
      else
        let loadAddr :=
          if magicNum ≠ 0x10064AA ∨ Ram.word ram rescueUboot3LoadAddr = 0 then rescueUboot3LoadAddr
          else rescueUboot3LoadAddr - Ram.word ram 0x19000020
        let write3 := calls.spiFlashWrite3.opsDone (programOps rescueUboot3FlashOffset
          (Ram.readBytes ram loadAddr rescueUboot3LoadSize))
        (erase ++ write12 ++ write3, [.unlock, .lock])
  else ([], [])

/-! ## The purpose -/

namespace EnvLayout

variable {E : Type*} (c : EnvLayout) (T : EnvTable E)

/-- The header fits into a copy, and the two copies do not overlap. -/
def Apart : Prop :=
  envHeaderSize ≤ c.envSize ∧
    (c.offset + c.envSize ≤ c.offsetRedund ∨ c.offsetRedund + c.envSize ≤ c.offset)
  deriving Decidable

/-- The copy that a save of two copies writes is the exported environment, marked active. -/
def HoldsRedund (b : Board E) (f : Flash) : Prop :=
  ∃ envNew b', c.envExport T b = some (envNew, b') ∧
    readBytes f (c.saveOffsets b).1 c.envSize = { envNew with flags := envRedundActive }.bytes

/-- The one copy is the exported environment. -/
def HoldsPlain (b : Board E) (f : Flash) : Prop :=
  ∃ envNew, c.envExportPlain T b = some envNew ∧ readBytes f c.offset c.envSize = envNew.bytes

end EnvLayout

/-- A save that returns 0 has stored the environment, and every function that unlocks the flash
locks it. -/
structure EnvSaveOk {E : Type*} (c : EnvLayout) (T : EnvTable E) (calls : SaveCalls)
    (copyCalls : CopyCalls) (ram : Ram.Memory) (b : Board E) : Prop where
  plain : (c.envSfSavePlain T calls b).ret = 0 →
    c.HoldsPlain T b ((c.envSfSavePlain T calls b).flash b.flash)
  redund : (c.envSfSaveRedund T calls b).ret = 0 →
    c.HoldsRedund T b ((c.envSfSaveRedund T calls b).flash b.flash)
  plainLocks : Relocked (c.envSfSavePlain T calls b).locks
  redundLocks : Relocked (c.envSfSaveRedund T calls b).locks
  copyLocks : Relocked (selfCopy copyCalls ram).2

namespace EnvLayout

variable {E : Type*} {c : EnvLayout} {T : EnvTable E} {calls : SaveCalls} {b : Board E}
  {f g : Flash} {offset : Nat} {bytes : List UInt8}

variable (c) in
/-- The byte operations of `replaceCommands`, when all of them are done. -/
def replaceOps (f : Flash) (offset : Nat) (bytes : List UInt8) : List ByteOp :=
  eraseOps offset (eraseSize c.envSize c.sectSize) ++ (programOps offset (bytes.take c.envSize) ++
    if c.sectSize > c.envSize then
      programOps (offset + c.envSize) (readBytes f (offset + c.envSize) (c.sectSize - c.envSize))
    else [])

theorem flatten_replaceCommands :
    ((c.replaceCommands calls f offset bytes).map Prod.fst).flatten =
      c.replaceOps f offset bytes := by
  unfold replaceCommands replaceOps
  by_cases hsect : c.sectSize > c.envSize
  · simp only [if_pos hsect, List.map_cons, List.map_nil, List.flatten_cons, List.flatten_nil,
      List.append_nil]
  · simp only [if_neg hsect, List.map_cons, List.map_nil, List.flatten_cons, List.flatten_nil]

theorem readBytes_replaceOps (hlen : bytes.length = c.envSize) :
    readBytes (run g (c.replaceOps f offset bytes)) offset c.envSize = bytes := by
  unfold replaceOps
  rw [← List.append_assoc, run_append, List.take_of_length_le (Nat.le_of_eq hlen)]
  have hnew := readBytes_program_erase g offset (hlen.trans_le (le_eraseSize _ c.sectSize_pos))
  rw [hlen] at hnew
  split
  · rw [(within_programOps _ _).readBytes_run (.inl (Nat.le_refl _))]
    exact hnew
  · exact hnew

theorem length_envExportPlain {envNew : PlainEnvT} (hheader : envHeaderSize ≤ c.envSize)
    (hexp : c.envExportPlain T b = some envNew) : envNew.bytes.length = c.envSize := by
  obtain ⟨data, hdata, rfl⟩ := Option.map_eq_some_iff.mp hexp
  have hlen := T.hexport_length hdata
  unfold envHeaderSize at hheader
  show data.length + 1 + 1 + 1 + 1 = c.envSize
  omega

variable (c) in
/-- **The save of one copy, case by case.**  It fails before it touches the flash, or returns 0
because its allocation fails, or issues its commands. -/
theorem plain_cases (T : EnvTable E) (calls : SaveCalls) (b : Board E) :
    ((c.envSfSavePlain T calls b).ret ≠ 0 ∧ (calls.setupFlashDevice ≠ 0 ∨
      (c.sectSize > c.envSize → calls.memalign = true) ∧
        (c.sectSize > c.envSize ∨ c.envExportPlain T b = none))) ∨
    ((c.envSfSavePlain T calls b).ret = 0 ∧ (c.envSfSavePlain T calls b).ops = [] ∧
      calls.setupFlashDevice = 0 ∧ c.sectSize > c.envSize ∧ calls.memalign = false) ∨
    ∃ envNew, c.envExportPlain T b = some envNew ∧ calls.setupFlashDevice = 0 ∧
      (c.sectSize > c.envSize → calls.memalign = true) ∧
      (c.envSfSavePlain T calls b).ret =
        (issue (c.replaceCommands calls b.flash c.offset envNew.bytes)).2 ∧
      (c.envSfSavePlain T calls b).ops =
        (issue (c.replaceCommands calls b.flash c.offset envNew.bytes)).1 := by
  unfold envSfSavePlain
  by_cases hsetup : calls.setupFlashDevice ≠ 0
  · rw [if_pos hsetup]
    exact .inl ⟨hsetup, .inl hsetup⟩
  rw [if_neg hsetup]
  have hsetup0 : calls.setupFlashDevice = 0 := not_not.mp hsetup
  by_cases halloc : c.sectSize > c.envSize ∧ (!calls.memalign) = true
  · rw [if_pos halloc]
    exact .inr (.inl ⟨hsetup0, rfl, hsetup0, halloc.1, Bool.not_eq_true' _ ▸ halloc.2⟩)
  rw [if_neg halloc]
  have hmem : c.sectSize > c.envSize → calls.memalign = true := by
    intro hsect
    by_contra hfail
    exact halloc ⟨hsect, by rw [Bool.eq_false_iff.mpr hfail]; rfl⟩
  by_cases hread : c.sectSize > c.envSize ∧ calls.spiFlashRead ≠ 0
  · rw [if_pos hread]
    exact .inl ⟨hread.2, .inr ⟨hmem, .inl hread.1⟩⟩
  rw [if_neg hread]
  cases hexp : c.envExportPlain T b with
  | none => exact .inl ⟨by show (1 : Int) ≠ 0; decide, .inr ⟨hmem, .inr rfl⟩⟩
  | some envNew =>
    refine .inr (.inr ⟨envNew, rfl, hsetup0, hmem, ?_⟩)
    dsimp only
    split
    · exact ⟨rfl, rfl⟩
    · next hret => exact ⟨(not_not.mp hret).symm, rfl⟩

/-- **The save of one copy.**  It returns 0 without having stored the environment exactly when its
allocation fails. -/
theorem plain_honest_iff (hheader : envHeaderSize ≤ c.envSize) (T : EnvTable E)
    (calls : SaveCalls) (b : Board E) :
    ((c.envSfSavePlain T calls b).ret = 0 →
      c.HoldsPlain T b ((c.envSfSavePlain T calls b).flash b.flash)) ↔
    (calls.setupFlashDevice = 0 → c.sectSize > c.envSize → calls.memalign = false →
      c.HoldsPlain T b b.flash) := by
  unfold LockedSave.flash
  rcases plain_cases c T calls b with ⟨hret, hwhy⟩ | ⟨hret, hops, hsetup, hsect, hmem⟩ |
    ⟨envNew, hexp, -, hmem, hret, hops⟩
  · refine iff_of_true (fun h => absurd h hret) fun hsetup hsect hfail => ?_
    rcases hwhy with h | ⟨hmem, -⟩
    · exact absurd hsetup h
    · rw [hmem hsect] at hfail
      exact absurd hfail (by decide)
  · rw [hops]
    exact ⟨fun h _ _ _ => h hret, fun h _ => h hsetup hsect hmem⟩
  · refine iff_of_true (fun h => ⟨envNew, hexp, ?_⟩) fun _ hsect hfail => ?_
    · rw [hops, issue_of_ret (hret.symm.trans h), flatten_replaceCommands]
      exact readBytes_replaceOps (length_envExportPlain hheader hexp)
    · rw [hmem hsect] at hfail
      exact absurd hfail (by decide)

theorem relocked_plain (T : EnvTable E) (calls : SaveCalls) (b : Board E) :
    Relocked (c.envSfSavePlain T calls b).locks := by
  unfold envSfSavePlain
  split
  · exact nofun
  split
  · show Relocked [.lock]; decide
  split
  · show Relocked [.lock]; decide
  split
  · show Relocked [.lock]; decide
  · dsimp only
    split
    · show Relocked [.unlock, .lock]; decide
    · show Relocked [.unlock, .lock, .lock]; decide

/-! ## The save of two copies -/

theorem envExport_spec {envNew : EnvT} {b' : Board E} (hexp : c.envExport T b = some (envNew, b')) :
    envNew.data.length = c.envSize - envHeaderSize ∧ b'.flash = b.flash ∧
      b'.envValid = b.envValid := by
  unfold envExport at hexp
  cases hdata : T.hexport (c.envSize - envHeaderSize) b.htab with
  | none =>
    rw [hdata] at hexp
    exact absurd hexp (by simp)
  | some data =>
    rw [hdata] at hexp
    obtain ⟨rfl, rfl⟩ := Prod.mk.inj (Option.some_inj.mp hexp)
    exact ⟨T.hexport_length hdata, rfl, rfl⟩

theorem length_redundBytes {envNew : EnvT} {b' : Board E} (hheader : envHeaderSize ≤ c.envSize)
    (hexp : c.envExport T b = some (envNew, b')) :
    { envNew with flags := envRedundActive }.bytes.length = c.envSize := by
  have hdata := (envExport_spec hexp).1
  rw [EnvT.length_bytes]
  show envHeaderSize + envNew.data.length = c.envSize
  omega

variable (c) in
/-- The flash commands of the save of two copies. -/
def redundCommands (calls : SaveCalls) (b : Board E) (envNew : EnvT) :
    List (List ByteOp × CmdResult) :=
  c.replaceCommands calls b.flash (c.saveOffsets b).1
      { envNew with flags := envRedundActive }.bytes ++
    [(programOps ((c.saveOffsets b).2 + flagsOffset) [envRedundObsolete], calls.spiFlashWriteFlag)]

theorem flatten_redundCommands {envNew : EnvT} :
    ((c.redundCommands calls b envNew).map Prod.fst).flatten =
      c.replaceOps b.flash (c.saveOffsets b).1 { envNew with flags := envRedundActive }.bytes ++
        [.program ((c.saveOffsets b).2 + flagsOffset) envRedundObsolete] := by
  unfold redundCommands
  rw [List.map_append, List.flatten_append, flatten_replaceCommands]
  rfl

theorem Apart.flags (hapart : c.Apart) (b : Board E) :
    (c.saveOffsets b).2 + flagsOffset < (c.saveOffsets b).1 ∨
      (c.saveOffsets b).1 + c.envSize ≤ (c.saveOffsets b).2 + flagsOffset := by
  obtain ⟨hheader, happ⟩ := hapart
  unfold envHeaderSize at hheader
  unfold saveOffsets flagsOffset
  split
  · dsimp only
    omega
  · dsimp only
    omega

variable (c) in
/-- **The save of two copies, case by case.**  It fails before it touches the flash, or issues its
commands. -/
theorem redund_cases (T : EnvTable E) (calls : SaveCalls) (b : Board E) :
    ((c.envSfSaveRedund T calls b).ret ≠ 0 ∧ (calls.setupFlashDevice ≠ 0 ∨
      c.sectSize > c.envSize ∨ c.envExport T b = none)) ∨
    ∃ envNew b', c.envExport T b = some (envNew, b') ∧ calls.setupFlashDevice = 0 ∧
      (c.envSfSaveRedund T calls b).ret = (issue (c.redundCommands calls b envNew)).2 ∧
      (c.envSfSaveRedund T calls b).ops = (issue (c.redundCommands calls b envNew)).1 := by
  unfold envSfSaveRedund
  by_cases hsetup : calls.setupFlashDevice ≠ 0
  · rw [if_pos hsetup]
    exact .inl ⟨hsetup, .inl hsetup⟩
  rw [if_neg hsetup]
  cases hexp : c.envExport T b with
  | none => exact .inl ⟨by show (-5 : Int) ≠ 0; decide, .inr (.inr rfl)⟩
  | some r =>
    obtain ⟨envNew, b'⟩ := r
    obtain ⟨-, hflash, hvalid⟩ := envExport_spec hexp
    have hoffsets : c.saveOffsets b' = c.saveOffsets b := by
      unfold saveOffsets
      rw [hvalid]
    dsimp only
    by_cases halloc : c.sectSize > c.envSize ∧ (!calls.memalign) = true
    · rw [if_pos halloc]
      exact .inl ⟨by show (-12 : Int) ≠ 0; decide, .inr (.inl halloc.1)⟩
    rw [if_neg halloc]
    by_cases hread : c.sectSize > c.envSize ∧ calls.spiFlashRead ≠ 0
    · rw [if_pos hread]
      exact .inl ⟨hread.2, .inr (.inl hread.1)⟩
    rw [if_neg hread, hoffsets, hflash]
    refine .inr ⟨envNew, b', rfl, not_not.mp hsetup, ?_⟩
    unfold redundCommands
    split
    · exact ⟨rfl, rfl⟩
    · next hret => exact ⟨(not_not.mp hret).symm, rfl⟩

/-- **The save of two copies.**  When it returns 0 it has stored the environment. -/
theorem redund_honest (hapart : c.Apart) (T : EnvTable E) (calls : SaveCalls) (b : Board E)
    (hret : (c.envSfSaveRedund T calls b).ret = 0) :
    c.HoldsRedund T b ((c.envSfSaveRedund T calls b).flash b.flash) := by
  unfold LockedSave.flash
  rcases redund_cases c T calls b with ⟨hne, -⟩ |
    ⟨envNew, b', hexp, -, hissue, hops⟩
  · exact absurd hret hne
  have hlen := length_redundBytes hapart.1 hexp
  refine ⟨envNew, b', hexp, ?_⟩
  rw [hops, issue_of_ret (hissue.symm.trans hret), flatten_redundCommands, run_append]
  have hcopy : readBytes (run b.flash (c.replaceOps b.flash (c.saveOffsets b).1 _))
      (c.saveOffsets b).1 c.envSize = _ := readBytes_replaceOps hlen
  refine (readBytes_congr fun x hlo hhi => run_of_ne fun op hop => ?_).trans hcopy
  have happ := hapart.flags b
  rw [List.mem_singleton.mp hop]
  show (c.saveOffsets b).2 + flagsOffset ≠ x
  omega

theorem relocked_redund (T : EnvTable E) (calls : SaveCalls) (b : Board E) :
    Relocked (c.envSfSaveRedund T calls b).locks := by
  unfold envSfSaveRedund
  split
  · exact nofun
  split
  · exact nofun
  · dsimp only
    split
    · show Relocked [.lock]; decide
    split
    · show Relocked [.lock]; decide
    split
    · show Relocked [.unlock, .lock]; decide
    · show Relocked [.unlock, .lock]; decide

end EnvLayout

theorem envSfSaveRedund_layout {E : Type*} (c : SfConfig) (T : EnvTable E) (calls : SaveCalls)
    (b : Board E) : (c.layout.envSfSaveRedund T calls b).toSave = envSfSave c T calls b := by
  unfold EnvLayout.envSfSaveRedund envSfSave
  by_cases hsetup : calls.setupFlashDevice ≠ 0
  · rw [if_pos hsetup, if_pos hsetup]
  rw [if_neg hsetup, if_neg hsetup]
  have hexport : c.layout.envExport T b = envExport c T b := rfl
  rw [hexport]
  cases hexp : envExport c T b with
  | none => rfl
  | some r =>
    obtain ⟨envNew, b'⟩ := r
    have hlen := EnvLayout.length_redundBytes c.header_le (hexport.trans hexp)
    have hcommands : c.layout.replaceCommands calls b'.flash (c.layout.saveOffsets b').1
          { envNew with flags := envRedundActive }.bytes ++
          [(programOps ((c.layout.saveOffsets b').2 + flagsOffset) [envRedundObsolete],
            calls.spiFlashWriteFlag)] =
        saveCommands c calls b'.flash (c.layout.saveOffsets b').1 (c.layout.saveOffsets b').2
          { envNew with flags := envRedundActive } := by
      unfold EnvLayout.replaceCommands saveCommands
      rw [List.take_of_length_le (Nat.le_of_eq hlen)]
      rfl
    dsimp only
    rw [hcommands]
    show (if c.sectSize > c.envSize ∧ (!calls.memalign) = true then _ else _ : LockedSave E).toSave
      = if c.sectSize > c.envSize ∧ (!calls.memalign) = true then _ else _
    split
    · rfl
    show (if c.sectSize > c.envSize ∧ calls.spiFlashRead ≠ 0 then _ else _ : LockedSave E).toSave
      = if c.sectSize > c.envSize ∧ calls.spiFlashRead ≠ 0 then _ else _
    split
    · rfl
    split
    · next hret => exact (if_pos hret).symm
    · next hret => exact (if_neg hret).symm

/-- `self_copy` has an image to write itself. -/
def CopiesUboot (ram : Ram.Memory) : Prop :=
  Words.htonl (Ram.word ram rescueUboot12LoadAddr) ≠ magicUboot
  deriving Decidable

/-- **The rescue copy.**  It locks the flash again exactly when neither the erase nor the first
write fails. -/
theorem relocked_selfCopy_iff (copyCalls : CopyCalls) (ram : Ram.Memory) :
    Relocked (selfCopy copyCalls ram).2 ↔
      (CopiesUboot ram → UInt8.ofInt copyCalls.spiFlashErase.ret = 0 ∧
        UInt8.ofInt copyCalls.spiFlashWrite12.ret = 0) := by
  unfold selfCopy
  by_cases huboot : Words.htonl (Ram.word ram rescueUboot12LoadAddr) ≠ magicUboot
  · dsimp only
    rw [if_pos huboot]
    by_cases herase : UInt8.ofInt copyCalls.spiFlashErase.ret ≠ 0
    · rw [if_pos herase]
      refine iff_of_false (by show ¬ Relocked [.unlock]; decide) fun h => ?_
      exact herase (h huboot).1
    rw [if_neg herase]
    by_cases hwrite : UInt8.ofInt copyCalls.spiFlashWrite12.ret ≠ 0
    · rw [if_pos hwrite]
      refine iff_of_false (by show ¬ Relocked [.unlock]; decide) fun h => ?_
      exact hwrite (h huboot).2
    rw [if_neg hwrite]
    refine iff_of_true (by show Relocked [.unlock, .lock]; decide) fun _ => ?_
    exact ⟨not_not.mp herase, not_not.mp hwrite⟩
  · dsimp only
    rw [if_neg huboot]
    exact iff_of_true (by decide) fun h => absurd h huboot

/-! ## The guarantee -/

section Guarantee

variable {E : Type*} {c : EnvLayout} (hapart : c.Apart) (T : EnvTable E) (calls : SaveCalls)
  (copyCalls : CopyCalls) (ram : Ram.Memory) (b : Board E)

include hapart in
/-- **Honest saves.**  The functions keep to their purpose exactly when the allocation of the save
of one copy does not fail, or the flash holds the environment anyway, and the erase and the first
write of a rescue copy do not fail. -/
theorem envSaveOk_iff : EnvSaveOk c T calls copyCalls ram b ↔
    (calls.setupFlashDevice = 0 → c.sectSize > c.envSize → calls.memalign = false →
      c.HoldsPlain T b b.flash) ∧
    (CopiesUboot ram → UInt8.ofInt copyCalls.spiFlashErase.ret = 0 ∧
      UInt8.ofInt copyCalls.spiFlashWrite12.ret = 0) := by
  rw [← EnvLayout.plain_honest_iff hapart.1, ← relocked_selfCopy_iff]
  constructor
  · exact fun h => ⟨h.plain, h.copyLocks⟩
  · exact fun ⟨hplain, hcopy⟩ => ⟨hplain, EnvLayout.redund_honest hapart T calls b,
      EnvLayout.relocked_plain T calls b, EnvLayout.relocked_redund T calls b, hcopy⟩

end Guarantee

/-- All flash commands of `self_copy` succeed. -/
def CopyCalls.ok : CopyCalls := ⟨⟨0, 0⟩, ⟨0, 0⟩, ⟨0, 0⟩⟩

/-- A blank flash and the environment `a=1`. -/
def blankBoard : Board EnvText := ⟨fun _ => 0xff, aOne, .valid, 0⟩

theorem envSaveOk_ok : EnvSaveOk smallConfig.layout textTable .ok .ok (fun _ => 0) blankBoard :=
  (envSaveOk_iff (by decide) textTable .ok .ok (fun _ => 0) blankBoard).mpr
    ⟨fun _ _ h => absurd h (by decide), fun _ => ⟨rfl, rfl⟩⟩

/-- **The holes.**  With no memory for the rest of the sector, the save of one copy returns 0 and
the flash is still blank.  When its erase fails, `self_copy` leaves the flash unlocked. -/
theorem not_envSaveOk_malloc_erase :
    (smallConfig.layout.envSfSavePlain textTable { SaveCalls.ok with memalign := false }
        blankBoard).ret = 0 ∧
      ¬ EnvSaveOk smallConfig.layout textTable { SaveCalls.ok with memalign := false } .ok
        (fun _ => 0) blankBoard ∧
      ¬ EnvSaveOk smallConfig.layout textTable .ok { CopyCalls.ok with spiFlashErase := ⟨-5, 0⟩ }
        (fun _ => 0) blankBoard := by
  refine ⟨rfl, fun h => ?_, fun h => ?_⟩
  · obtain ⟨envNew, hexp, hread⟩ := h.plain rfl
    have hblank : (smallConfig.layout.envExportPlain textTable blankBoard).all
        (fun ep => readBytes blankBoard.flash 0 10 ≠ ep.bytes) = true := by decide +kernel
    rw [hexp] at hblank
    exact of_decide_eq_true hblank hread
  · exact absurd h.copyLocks (by decide +kernel)

end RealtekIpcam.Uboot
