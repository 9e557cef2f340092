import RealtekIpcam.Uboot.Update

/-!
# One section

What one round of a writer's loop does, said once for both writers.  They differ in `dtb`, what is
done with a device tree before it is written, and all that this module uses of it is `DtbFrame`: it
copies the payload to `dtb_addr` and otherwise changes the environment only, and not that variable.

`sectionRound_end`, `sectionRound_fails` and `sectionRound_next` are the three ways a round can go,
and the lemmas about `afterWrite` say what it leaves behind.
-/

namespace RealtekIpcam.Uboot

open Function Ram

variable {V : Type*} {c : UpdateConfig V} {o : Outcomes} {s t : UpdateState V}
  {dtb : UpdateState V → Header → UInt32 → UpdateState V} {addr : UInt32}

/-! ## The environment -/

namespace UpdateConfig

theorem envGetHex_set (env : Environment V) (name : EnvVar) (n d : UInt32) :
    c.envGetHex (update env name (some (c.toHex n))) name d = n := by
  unfold envGetHex
  rw [update_self]
  show ((c.ofHex (c.toHex n))).getD d = n
  rw [c.ofHex_toHex]
  rfl

theorem envGetHex_congr {env env' : Environment V} {name : EnvVar} (h : env' name = env name)
    (d : UInt32) : c.envGetHex env' name d = c.envGetHex env name d := by
  unfold envGetHex
  rw [h]

end UpdateConfig

namespace UpdateState

@[simp] theorem envSet_env_self (s : UpdateState V) (name : EnvVar) (value : Option V) :
    (s.envSet name value).env name = value := update_self ..

theorem envSet_env_of_ne (s : UpdateState V) {name other : EnvVar} (h : other ≠ name)
    (value : Option V) : (s.envSet name value).env other = s.env other :=
  update_of_ne h _ _

@[simp] theorem envSetHex_env_self (c : UpdateConfig V) (s : UpdateState V) (name : EnvVar)
    (n : UInt32) : (s.envSetHex c name n).env name = some (c.toHex n) := envSet_env_self ..

theorem envSetHex_env_of_ne (c : UpdateConfig V) (s : UpdateState V) {name other : EnvVar}
    (h : other ≠ name) (n : UInt32) : (s.envSetHex c name n).env other = s.env other :=
  envSet_env_of_ne s h _

theorem envSave_eq (s : UpdateState V) :
    s.envSave o = { s with saved := if o.envSave then s.env else s.saved } := by
  unfold envSave
  split <;> rfl

@[simp] theorem envSave_env (s : UpdateState V) : (s.envSave o).env = s.env := by
  rw [envSave_eq]

theorem envSave_saved (s : UpdateState V) :
    (s.envSave o).saved = if o.envSave then s.env else s.saved := by
  rw [envSave_eq]

end UpdateState

/-! ## Device trees -/

/-- From `s` to `t` a payload was copied to `dtb_addr`, and otherwise at most the environment was
changed, though not that variable. -/
structure DtbFrame (c : UpdateConfig V) (s t : UpdateState V) (loadaddr len : UInt32) : Prop where
  ram : t.ram = copy s.ram (c.dtbAddr s.env) loadaddr len.toNat
  dtbAddr : c.dtbAddr t.env = c.dtbAddr s.env
  calls : t.calls = s.calls
  flashWrites : t.flashWrites = s.flashWrites
  accesses : t.accesses = ⟨loadaddr, len.toNat⟩ :: s.accesses
  sections : t.sections = s.sections

/-- What a writer does with device trees stays in the frame. -/
def Frames (c : UpdateConfig V) (dtb : UpdateState V → Header → UInt32 → UpdateState V) : Prop :=
  ∀ s h loadaddr, DtbFrame c s (dtb s h loadaddr) loadaddr h.filelen

theorem setDtbOffset_eq (s : UpdateState V) (flashOffset : UInt32) :
    ∃ env saved, setDtbOffset c o s flashOffset = { s with env := env, saved := saved } ∧
      (∀ name, name ≠ .dtbOffset → env name = s.env name) ∧
      env .dtbOffset = if c.dtbOffset s.env ≠ flashOffset then some (c.toHex flashOffset)
        else s.env .dtbOffset := by
  unfold setDtbOffset
  split
  · refine ⟨_, _, UpdateState.envSave_eq _, fun name hname => ?_, ?_⟩
    · exact UpdateState.envSet_env_of_ne s hname _
    · exact UpdateState.envSet_env_self ..
  · exact ⟨s.env, s.saved, rfl, fun _ _ => rfl, rfl⟩

theorem dtbAddr_congr {env env' : Environment V} (h : env' .dtbAddr = env .dtbAddr) :
    c.dtbAddr env' = c.dtbAddr env :=
  c.envGetHex_congr h _

theorem frames_rescureDtb : Frames c (rescureDtb c o) := by
  intro s h loadaddr
  obtain ⟨env, saved, heq, henv, -⟩ := setDtbOffset_eq (c := c) (o := o) s h.flashOffset
  have haddr : c.dtbAddr env = c.dtbAddr s.env := dtbAddr_congr (henv .dtbAddr (by decide))
  unfold rescureDtb
  rw [heq]
  exact ⟨by rw [← haddr]; rfl, haddr, rfl, rfl, rfl, rfl⟩

theorem writeAllDtb_eq (s : UpdateState V) (h : Header) (loadaddr : UInt32) :
    writeAllDtb c o s h loadaddr =
      ((rescureDtb c o s h loadaddr).envSetHex c .dtbLen h.filelen).envSave o := rfl

theorem frames_writeAllDtb : Frames c (writeAllDtb c o) := by
  intro s h loadaddr
  have hframe := frames_rescureDtb (c := c) (o := o) s h loadaddr
  rw [writeAllDtb_eq, UpdateState.envSave_eq]
  refine ⟨hframe.ram, ?_, hframe.calls, hframe.flashWrites, hframe.accesses, hframe.sections⟩
  refine (dtbAddr_congr ?_).trans hframe.dtbAddr
  have hne : EnvVar.dtbAddr ≠ EnvVar.dtbLen := by decide
  exact UpdateState.envSetHex_env_of_ne c (rescureDtb c o s h loadaddr) hne h.filelen

/-! ## A round -/

/-- The state in which the section at `addr` is written. -/
def beforeWrite (dtb : UpdateState V → Header → UInt32 → UpdateState V) (s : UpdateState V)
    (addr : UInt32) : UpdateState V :=
  let h := header s.ram addr
  if h.magicNum = magicDtb then dtb (readHeader s addr) h (addr + 0x20) else readHeader s addr

/-- The state after the write of the section at `addr`. -/
def afterWrite (o : Outcomes) (dtb : UpdateState V → Header → UInt32 → UpdateState V)
    (s : UpdateState V) (addr : UInt32) : UpdateState V :=
  let h := header s.ram addr
  (doWriteFile o (beforeWrite dtb s addr) h.flashOffset h.filelen (addr + 0x20) h.partitionSize
    h.magicNum).2

/-- What writing the section with the header `h` returns. -/
def writeRet (o : Outcomes) (s : UpdateState V) (h : Header) : Int :=
  if h.filelen = 0 then cmdRetFailure else o.flashWrite s.flashWrites.length

theorem writeRet_ne_zero {h : Header} : writeRet o s h ≠ 0 ↔
    h.filelen = 0 ∨ o.flashWrite s.flashWrites.length ≠ 0 := by
  unfold writeRet
  by_cases hlen : h.filelen = 0
  · rw [if_pos hlen]
    exact iff_of_true (by decide) (.inl hlen)
  · rw [if_neg hlen]
    exact ⟨.inr, fun hor => hor.resolve_left hlen⟩

theorem doWriteFile_ret (s : UpdateState V) (offset len loadaddr partitionSize magicNum : UInt32) :
    (doWriteFile o s offset len loadaddr partitionSize magicNum).1 =
      if len = 0 then cmdRetFailure else o.flashWrite s.flashWrites.length := by
  unfold doWriteFile
  by_cases hlen : len = 0
  · rw [if_pos hlen, if_pos hlen]
  · rw [if_neg hlen, if_neg hlen]

theorem doWriteFile_state (s : UpdateState V)
    (offset len loadaddr partitionSize magicNum : UInt32) :
    ∃ t, (doWriteFile o s offset len loadaddr partitionSize magicNum).2 = t ∧
      t.ram = s.ram ∧ t.saved = s.saved ∧ t.dtbLen = s.dtbLen ∧ t.sections = s.sections ∧
      (∀ name, name ≠ .fileaddr → t.env name = s.env name) ∧
      t.calls = ⟨offset, readBytes s.ram loadaddr len.toNat, len, partitionSize, magicNum⟩ ::
        s.calls ∧
      t.flashWrites = (if len = 0 then [] else [⟨offset, len, readBytes s.ram loadaddr len.toNat,
        if partitionSize = 0 then len else partitionSize⟩]) ++ s.flashWrites ∧
      t.accesses = (if len = 0 then [] else [⟨loadaddr, len.toNat⟩]) ++ s.accesses := by
  unfold doWriteFile
  by_cases hlen : len = 0
  · rw [if_pos hlen]
    simp only [if_pos hlen]
    exact ⟨_, rfl, rfl, rfl, rfl, rfl, fun _ _ => rfl, rfl, rfl, rfl⟩
  · rw [if_neg hlen]
    simp only [if_neg hlen]
    refine ⟨_, rfl, rfl, rfl, rfl, rfl, fun name hname => ?_, rfl, rfl, rfl⟩
    exact update_of_ne hname _ _

theorem beforeWrite_flashWrites (hdtb : Frames c dtb) :
    (beforeWrite dtb s addr).flashWrites = s.flashWrites := by
  unfold beforeWrite
  dsimp only
  split
  · exact (hdtb _ _ _).flashWrites
  · rfl

theorem sectionRound_end (hend : (header s.ram addr).magicNum = magicFileEnd) :
    sectionRound o s dtb addr = (some 0, (header s.ram addr).filelen, readHeader s addr) := by
  unfold sectionRound
  dsimp only
  rw [if_pos hend]

theorem sectionRound_eq (hdtb : Frames c dtb)
    (hend : (header s.ram addr).magicNum ≠ magicFileEnd) :
    sectionRound o s dtb addr =
      (if writeRet o s (header s.ram addr) ≠ 0 then some (writeRet o s (header s.ram addr))
        else none, (header s.ram addr).filelen, afterWrite o dtb s addr) := by
  have hret : (doWriteFile o (beforeWrite dtb s addr) (header s.ram addr).flashOffset
      (header s.ram addr).filelen (addr + 0x20) (header s.ram addr).partitionSize
      (header s.ram addr).magicNum).1 = writeRet o s (header s.ram addr) := by
    rw [doWriteFile_ret, beforeWrite_flashWrites hdtb]
    rfl
  rw [← hret]
  unfold sectionRound
  dsimp only
  rw [if_neg hend]
  by_cases hfail : (doWriteFile o (beforeWrite dtb s addr) (header s.ram addr).flashOffset
      (header s.ram addr).filelen (addr + 0x20) (header s.ram addr).partitionSize
      (header s.ram addr).magicNum).1 ≠ 0
  · rw [if_pos hfail]
    exact if_pos hfail
  · rw [if_neg hfail]
    exact if_neg hfail

theorem sectionRound_fails (hdtb : Frames c dtb)
    (hend : (header s.ram addr).magicNum ≠ magicFileEnd)
    (hret : writeRet o s (header s.ram addr) ≠ 0) :
    sectionRound o s dtb addr = (some (writeRet o s (header s.ram addr)),
      (header s.ram addr).filelen, afterWrite o dtb s addr) := by
  rw [sectionRound_eq hdtb hend, if_pos hret]

theorem sectionRound_next (hdtb : Frames c dtb)
    (hend : (header s.ram addr).magicNum ≠ magicFileEnd)
    (hret : writeRet o s (header s.ram addr) = 0) :
    sectionRound o s dtb addr =
      (none, (header s.ram addr).filelen, afterWrite o dtb s addr) := by
  rw [sectionRound_eq hdtb hend, if_neg (not_not.mpr hret)]

/-- The memory when the section at `addr` is written. -/
def sectionRam (dst : UInt32) (ram : Memory) (addr : UInt32) : Memory :=
  if (header ram addr).magicNum = magicDtb then
    copy ram dst (addr + 0x20) (header ram addr).filelen.toNat
  else ram

/-- What a round leaves behind, whether the write worked or not. -/
structure Written (c : UpdateConfig V) (s t : UpdateState V) (addr : UInt32) : Prop where
  ram : t.ram = sectionRam (c.dtbAddr s.env) s.ram addr
  dtbAddr : c.dtbAddr t.env = c.dtbAddr s.env
  calls : t.calls = ⟨(header s.ram addr).flashOffset,
    readBytes t.ram (addr + 0x20) (header s.ram addr).filelen.toNat, (header s.ram addr).filelen,
    (header s.ram addr).partitionSize, (header s.ram addr).magicNum⟩ :: s.calls
  flashWrites : t.flashWrites = (if (header s.ram addr).filelen = 0 then [] else
    [⟨(header s.ram addr).flashOffset, (header s.ram addr).filelen,
      readBytes t.ram (addr + 0x20) (header s.ram addr).filelen.toNat,
      if (header s.ram addr).partitionSize = 0 then (header s.ram addr).filelen
      else (header s.ram addr).partitionSize⟩]) ++ s.flashWrites
  sections : t.sections = (header s.ram addr).filelen :: s.sections
  accesses : t.accesses = (if (header s.ram addr).filelen = 0 then [] else
      [⟨addr + 0x20, (header s.ram addr).filelen.toNat⟩]) ++
    (if (header s.ram addr).magicNum = magicDtb then
      [⟨addr + 0x20, (header s.ram addr).filelen.toNat⟩] else []) ++
    (readHeader s addr).accesses

/-- What one section writes. -/
theorem written_afterWrite (hdtb : Frames c dtb) : Written c s (afterWrite o dtb s addr) addr := by
  obtain ⟨t, ht, hram, -, -, hsections, henv, hcalls, hwrites, haccesses⟩ :=
    doWriteFile_state (o := o) (beforeWrite dtb s addr) (header s.ram addr).flashOffset
      (header s.ram addr).filelen (addr + 0x20) (header s.ram addr).partitionSize
      (header s.ram addr).magicNum
  have hafter : afterWrite o dtb s addr = t := ht
  rw [hafter]
  rw [← hram] at hcalls hwrites
  have hdtbAddr : c.dtbAddr t.env = c.dtbAddr (beforeWrite dtb s addr).env :=
    dtbAddr_congr (henv .dtbAddr (by decide))
  by_cases hmagic : (header s.ram addr).magicNum = magicDtb
  · have hbefore : beforeWrite dtb s addr =
        dtb (readHeader s addr) (header s.ram addr) (addr + 0x20) := if_pos hmagic
    have hframe := hdtb (readHeader s addr) (header s.ram addr) (addr + 0x20)
    rw [← hbefore] at hframe
    refine ⟨?_, hdtbAddr.trans hframe.dtbAddr, ?_, ?_, ?_, ?_⟩
    · rw [hram, hframe.ram, sectionRam, if_pos hmagic]
      rfl
    · rw [hcalls, hframe.calls]
      rfl
    · rw [hwrites, hframe.flashWrites]
      rfl
    · rw [hsections, hframe.sections]
      rfl
    · rw [haccesses, hframe.accesses, if_pos hmagic, List.append_assoc]
      rfl
  · have hbefore : beforeWrite dtb s addr = readHeader s addr := if_neg hmagic
    rw [hbefore] at hdtbAddr hcalls hwrites hsections haccesses hram
    refine ⟨?_, hdtbAddr, hcalls, hwrites, hsections, ?_⟩
    · rw [hram, sectionRam, if_neg hmagic]
      rfl
    · rw [haccesses, if_neg hmagic, List.append_nil]

/-! ## The environment after a round -/

/-- `dtb_offset` after a section with the header `h` was met. -/
def dtbOffsetStep (c : UpdateConfig V) (value : Option V) (h : Header) : Option V :=
  if h.magicNum = magicDtb ∧ (value.bind c.ofHex).getD c.fdtFlashAddr ≠ h.flashOffset then
    some (c.toHex h.flashOffset)
  else value

/-- `dtb_len` after `_do_write_all_` met a section with the header `h`. -/
def dtbLenStep (c : UpdateConfig V) (value : Option V) (h : Header) : Option V :=
  if h.magicNum = magicDtb then some (c.toHex h.filelen) else value

/-- What a writer does with `dtb_offset` and `dtb_len` for a device tree. -/
structure DtbEnv (c : UpdateConfig V) (dtb : UpdateState V → Header → UInt32 → UpdateState V)
    (lenStep : Option V → Header → Option V) : Prop where
  dtbOffset : ∀ s h loadaddr, h.magicNum = magicDtb →
    (dtb s h loadaddr).env .dtbOffset = dtbOffsetStep c (s.env .dtbOffset) h
  dtbLen : ∀ s h loadaddr, h.magicNum = magicDtb →
    (dtb s h loadaddr).env .dtbLen = lenStep (s.env .dtbLen) h
  other : ∀ value h, h.magicNum ≠ magicDtb → lenStep value h = value

theorem dtbEnv_rescureDtb : DtbEnv c (rescureDtb c o) fun value _ => value where
  dtbOffset s h loadaddr hdtb := by
    obtain ⟨env, saved, heq, -, henv⟩ := setDtbOffset_eq (c := c) (o := o) s h.flashOffset
    show (setDtbOffset c o s h.flashOffset).env .dtbOffset = _
    rw [heq]
    refine henv.trans ?_
    unfold dtbOffsetStep
    simp only [hdtb, true_and]
    rfl
  dtbLen s h loadaddr _ := by
    obtain ⟨env, saved, heq, henv, -⟩ := setDtbOffset_eq (c := c) (o := o) s h.flashOffset
    show (setDtbOffset c o s h.flashOffset).env .dtbLen = _
    rw [heq]
    exact henv .dtbLen (by decide)
  other _ _ _ := rfl

theorem dtbEnv_writeAllDtb : DtbEnv c (writeAllDtb c o) (dtbLenStep c) where
  dtbOffset s h loadaddr hdtb := by
    have hne : EnvVar.dtbOffset ≠ EnvVar.dtbLen := by decide
    rw [writeAllDtb_eq, UpdateState.envSave_env, UpdateState.envSetHex_env_of_ne c _ hne]
    exact dtbEnv_rescureDtb.dtbOffset s h loadaddr hdtb
  dtbLen s h loadaddr hdtb := by
    rw [writeAllDtb_eq, UpdateState.envSave_env, UpdateState.envSetHex_env_self]
    exact (if_pos hdtb).symm
  other value h hdtb := if_neg hdtb

theorem env_afterWrite_eq (o : Outcomes)
    (dtb : UpdateState V → Header → UInt32 → UpdateState V) (s : UpdateState V) (addr : UInt32) :
    (afterWrite o dtb s addr).saved = (beforeWrite dtb s addr).saved ∧
      ∀ name, name ≠ .fileaddr →
        (afterWrite o dtb s addr).env name = (beforeWrite dtb s addr).env name := by
  obtain ⟨t, ht, -, hsaved, -, -, hother, -⟩ :=
    doWriteFile_state (o := o) (beforeWrite dtb s addr) (header s.ram addr).flashOffset
      (header s.ram addr).filelen (addr + 0x20) (header s.ram addr).partitionSize
      (header s.ram addr).magicNum
  have hafter : afterWrite o dtb s addr = t := ht
  rw [hafter]
  exact ⟨hsaved, hother⟩

theorem env_afterWrite {lenStep : Option V → Header → Option V} (henv : DtbEnv c dtb lenStep)
    (o : Outcomes) (s : UpdateState V) (addr : UInt32) :
    (afterWrite o dtb s addr).env .dtbOffset =
        dtbOffsetStep c (s.env .dtbOffset) (header s.ram addr) ∧
      (afterWrite o dtb s addr).env .dtbLen = lenStep (s.env .dtbLen) (header s.ram addr) := by
  obtain ⟨-, hvar⟩ := env_afterWrite_eq o dtb s addr
  rw [hvar .dtbOffset (by decide), hvar .dtbLen (by decide)]
  by_cases hmagic : (header s.ram addr).magicNum = magicDtb
  · have hbefore : beforeWrite dtb s addr =
        dtb (readHeader s addr) (header s.ram addr) (addr + 0x20) := if_pos hmagic
    rw [hbefore]
    exact ⟨henv.dtbOffset _ _ _ hmagic, henv.dtbLen _ _ _ hmagic⟩
  · have hbefore : beforeWrite dtb s addr = readHeader s addr := if_neg hmagic
    rw [hbefore]
    exact ⟨(if_neg fun h => hmagic h.1).symm, (henv.other _ _ hmagic).symm⟩

end RealtekIpcam.Uboot
