import Mathlib.Data.List.Induction
import RealtekIpcam.Uboot.ImageBounds

/-!
# What a failed update leaves in the environment

The variables `dtb_offset`, `dtb_len` and `kernel_offset` say where the next boot looks.  All three
commands set them without regard to the result of the flash write: `do_update_kernel` after it,
`do_update_dtb` and `_do_write_all_` before it, and these two save them at once.

`Kept` says that a variable has its old value, in memory and as last saved.  After a failed write
this holds of the variables of the section that failed exactly when the command had nothing to
change: `failedUpdate_keeps_iff`.
-/

namespace RealtekIpcam.Uboot

open Ram

variable {V : Type*} {c : UpdateConfig V} {o : Outcomes} {s t u : UpdateState V}

/-- The variable has its old value, in memory and as last saved. -/
def Kept (s t : UpdateState V) (name : EnvVar) : Prop :=
  t.env name = s.env name ∧ t.saved name = s.saved name

/-- A command that started with an empty record of calls failed in a call of `_do_write_file_`. -/
def FailedWrite (r : Int × UpdateState V) : Prop := r.1 ≠ 0 ∧ r.2.calls ≠ []

/-! ## `do_update_kernel` -/

/-- The length of the payload that a transfer gets. -/
def Transfer.length : Transfer → UInt32
  | .dfu _ _ len => len
  | .tftp ret _ size => if ret < 0 then 0 else size

theorem getPayload_state {transfer : Transfer} {len : UInt32}
    (h : getPayload c s transfer = some (len, t)) :
    len = transfer.length ∧ t.saved = s.saved ∧ t.calls = s.calls ∧
      t.flashWrites = s.flashWrites ∧ ∀ name, name ≠ .filesize → t.env name = s.env name := by
  cases transfer with
  | dfu ret ram size =>
    by_cases hret : ret ≠ 0
    · rw [getPayload, if_pos hret] at h
      cases h
    · rw [getPayload, if_neg hret] at h
      cases h
      exact ⟨rfl, rfl, rfl, rfl, fun _ _ => rfl⟩
  | tftp ret ram size =>
    by_cases hret : ret < 0
    · rw [getPayload, doGetFile, if_pos hret] at h
      cases h
      exact ⟨(if_pos hret).symm, rfl, rfl, rfl, fun _ _ => rfl⟩
    · rw [getPayload, doGetFile, if_neg hret] at h
      cases h
      refine ⟨?_, rfl, rfl, rfl, fun name hname => ?_⟩
      · exact (UpdateConfig.envGetHex_set s.env .filesize size 0).trans (if_neg hret).symm
      · exact (UpdateState.envSet_env_of_ne _ hname _).trans
          (UpdateState.envSetHex_env_of_ne c { s with ram := ram } hname size)

theorem doGetPartition_state (s : UpdateState V) (l : Lookup) :
    (doGetPartition s l).1 = l.value ∧ (doGetPartition s l).2.env = s.env ∧
      (doGetPartition s l).2.saved = s.saved ∧ (doGetPartition s l).2.calls = s.calls ∧
      (doGetPartition s l).2.flashWrites = s.flashWrites := by
  unfold doGetPartition
  split
  · exact ⟨rfl, rfl, rfl, rfl, rfl⟩
  · exact ⟨rfl, rfl, rfl, rfl, rfl⟩

theorem doUpdateKernel_kept_iff {offset size : Lookup} {transfer : Transfer}
    (hcalls : s.calls = []) (hfail : FailedWrite (doUpdateKernel c o s offset size transfer)) :
    Kept s (doUpdateKernel c o s offset size transfer).2 .kernelOffset ↔
      s.env .kernelOffset = some (c.toHex offset.value) := by
  obtain ⟨hvalue, henv, hsaved, hcalls₁, -⟩ := doGetPartition_state s offset
  obtain ⟨hvalue₂, henv₂, hsaved₂, hcalls₂, -⟩ :=
    doGetPartition_state (doGetPartition s offset).2 size
  unfold doUpdateKernel at hfail ⊢
  dsimp only at hfail ⊢
  rw [hvalue] at hfail ⊢
  by_cases hlookup : offset.value = 0 ∨ (doGetPartition (doGetPartition s offset).2 size).1 = 0
  · rw [if_pos hlookup] at hfail
    exact absurd (hcalls₂.trans (hcalls₁.trans hcalls)) hfail.2
  rw [if_neg hlookup] at hfail ⊢
  cases hpayload : getPayload c (doGetPartition (doGetPartition s offset).2 size).2 transfer with
  | none =>
    rw [hpayload] at hfail
    exact absurd (hcalls₂.trans (hcalls₁.trans hcalls)) hfail.2
  | some p =>
    obtain ⟨len, t⟩ := p
    obtain ⟨-, hsaved₃, -⟩ := getPayload_state hpayload
    obtain ⟨u, hu, -, hsaved₄, -⟩ := doWriteFile_state (o := o) t offset.value len sysLoadAddr
      (doGetPartition (doGetPartition s offset).2 size).1 0
    dsimp only
    rw [hu]
    have hsame : (u.envSetHex c .kernelOffset offset.value).saved = s.saved :=
      hsaved₄.trans (hsaved₃.trans (hsaved₂.trans hsaved))
    unfold Kept
    rw [hsame, UpdateState.envSetHex_env_self]
    exact ⟨fun h => h.1.symm, fun h => ⟨h.symm, rfl⟩⟩

theorem kept_iff_of_saved {name : EnvVar}
    (hsaved : t.saved name = if o.envSave = true then t.env name else s.saved name) :
    Kept s t name ↔ t.env name = s.env name ∧
      (o.envSave = true → s.saved name = s.env name) := by
  unfold Kept
  rw [hsaved]
  by_cases hsave : o.envSave = true
  · rw [if_pos hsave]
    exact and_congr_right fun h => ⟨fun h' _ => h'.symm.trans h, fun h' => h.trans (h' hsave).symm⟩
  · rw [if_neg hsave]
    exact and_congr_right fun _ => ⟨fun _ h => absurd h hsave, fun _ => rfl⟩

/-- The length of the device tree that `do_update_dtb` writes: what was transferred, rounded up to a
multiple of 8 when the look-up of the partition loads the device tree from flash. -/
def dtbWriteLen (transfer : Transfer) (lookup : Lookup) : UInt32 :=
  if lookup.reload then
    if transfer.length % 8 ≠ 0 then transfer.length / 8 * 8 + 8 else transfer.length
  else transfer.length

theorem doUpdateDtb_state {transfer : Transfer} (o : Outcomes) (lookup : Lookup) {len : UInt32}
    (hpayload : getPayload c s transfer = some (len, t)) :
    let u := (doUpdateDtb c o s transfer lookup).2
    u.env .dtbOffset = (if lookup.value ≠ 0 ∧ lookup.value ≠ c.dtbOffset s.env then
      some (c.toHex lookup.value) else s.env .dtbOffset) ∧
    u.env .dtbLen = some (c.toHex (dtbWriteLen transfer lookup)) ∧
    ∀ name, name ≠ .fileaddr → name ≠ .filesize →
      u.saved name = if o.envSave = true then u.env name else s.saved name := by
  obtain ⟨hlen, hsaved, -, -, henv⟩ := getPayload_state hpayload
  have hoffset : c.dtbOffset t.env = c.dtbOffset s.env :=
    c.envGetHex_congr (henv .dtbOffset (by decide)) _
  -- The state when the partition was looked up.
  let v := ({ t with dtbLen := len } : UpdateState V).memcpy (c.dtbAddr s.env) sysLoadAddr len
  obtain ⟨hvalue, henv₁, hsaved₁, -, -⟩ := doGetPartition_state v lookup
  have hdtbLen : (doGetPartition v lookup).2.dtbLen = dtbWriteLen transfer lookup := by
    unfold doGetPartition dtbWriteLen
    rw [← hlen]
    split
    · rfl
    · rfl
  -- The state in which the write is tried.
  let x := doGetPartition v lookup
  let set := lookup.value ≠ 0 ∧ lookup.value ≠ c.dtbOffset t.env
  let w := if set then x.2.envSetHex c .dtbOffset lookup.value else x.2
  have hw : w.env .dtbOffset = (if set then some (c.toHex lookup.value) else s.env .dtbOffset) ∧
      w.dtbLen = dtbWriteLen transfer lookup ∧ w.saved = s.saved := by
    have hx : x.2.env .dtbOffset = s.env .dtbOffset :=
      (congrFun henv₁ _).trans (henv .dtbOffset (by decide))
    by_cases hset : set
    · have hw : w = x.2.envSetHex c .dtbOffset lookup.value := if_pos hset
      rw [hw, if_pos hset]
      exact ⟨UpdateState.envSetHex_env_self .., hdtbLen, hsaved₁.trans hsaved⟩
    · have hw : w = x.2 := if_neg hset
      rw [hw, if_neg hset]
      exact ⟨hx, hdtbLen, hsaved₁.trans hsaved⟩
  let y := (w.envSetHex c .dtbLen w.dtbLen).envSave o
  obtain ⟨u, hu, -, hsaved₂, -, -, henv₂, -⟩ := doWriteFile_state (o := o) y
    (if set then lookup.value else c.dtbOffset t.env) y.dtbLen sysLoadAddr c.fdtFlashSize 0
  have hrun : (doUpdateDtb c o s transfer lookup).2 = u := by
    rw [← hu]
    unfold doUpdateDtb
    rw [hpayload]
    dsimp only
    rw [hvalue]
    rfl
  dsimp only
  rw [hrun]
  refine ⟨?_, ?_, fun name hname hname' => ?_⟩
  · have hne : EnvVar.dtbOffset ≠ EnvVar.dtbLen := by decide
    rw [henv₂ .dtbOffset (by decide), UpdateState.envSave_env,
      UpdateState.envSetHex_env_of_ne c w hne, hw.1, ← hoffset]
  · rw [henv₂ .dtbLen (by decide), UpdateState.envSave_env, UpdateState.envSetHex_env_self, hw.2.1]
  · rw [hsaved₂, henv₂ name hname, UpdateState.envSave_env, UpdateState.envSave_saved]
    by_cases hsave : o.envSave = true
    · rw [if_pos hsave, if_pos hsave]
    · rw [if_neg hsave, if_neg hsave]
      exact congrFun hw.2.2 name

theorem doUpdateDtb_kept_iff {transfer : Transfer} {lookup : Lookup} (hcalls : s.calls = [])
    (hfail : FailedWrite (doUpdateDtb c o s transfer lookup)) :
    (Kept s (doUpdateDtb c o s transfer lookup).2 .dtbOffset ∧
      Kept s (doUpdateDtb c o s transfer lookup).2 .dtbLen) ↔
    (lookup.value = 0 ∨ lookup.value = c.dtbOffset s.env) ∧
      s.env .dtbLen = some (c.toHex (dtbWriteLen transfer lookup)) ∧
      (o.envSave = true →
        s.saved .dtbOffset = s.env .dtbOffset ∧ s.saved .dtbLen = s.env .dtbLen) := by
  cases hpayload : getPayload c s transfer with
  | none =>
    unfold doUpdateDtb at hfail
    rw [hpayload] at hfail
    exact absurd hcalls hfail.2
  | some p =>
    obtain ⟨len, t⟩ := p
    obtain ⟨hoffset, hlen, hsaved⟩ := doUpdateDtb_state o lookup hpayload
    rw [kept_iff_of_saved (hsaved .dtbOffset (by decide) (by decide)),
      kept_iff_of_saved (hsaved .dtbLen (by decide) (by decide)), hoffset, hlen]
    -- A new offset is not the old text, whose number it would be.
    have hkeep : (if lookup.value ≠ 0 ∧ lookup.value ≠ c.dtbOffset s.env then
        some (c.toHex lookup.value) else s.env .dtbOffset) = s.env .dtbOffset ↔
        lookup.value = 0 ∨ lookup.value = c.dtbOffset s.env := by
      by_cases hset : lookup.value ≠ 0 ∧ lookup.value ≠ c.dtbOffset s.env
      · rw [if_pos hset]
        refine iff_of_false (fun h => hset.2 ?_) (not_or.mpr hset)
        unfold UpdateConfig.dtbOffset UpdateConfig.envGetHex
        rw [← h]
        show lookup.value = (c.ofHex (c.toHex lookup.value)).getD _
        rw [c.ofHex_toHex]
        rfl
      · rw [if_neg hset]
        refine iff_of_true rfl ?_
        by_cases hzero : lookup.value = 0
        · exact .inl hzero
        · exact .inr (not_not.mp fun hne => hset ⟨hzero, hne⟩)
    rw [hkeep]
    constructor
    · rintro ⟨⟨hkept, hsame⟩, hkept', hsame'⟩
      exact ⟨hkept, hkept'.symm, fun hsave => ⟨hsame hsave, hsame' hsave⟩⟩
    · rintro ⟨hkept, hkept', hsame⟩
      exact ⟨⟨hkept, fun hsave => (hsame hsave).1⟩, hkept'.symm, fun hsave => (hsame hsave).2⟩

/-! ## `_do_write_all_` -/

/-- The walk of `_do_write_all_` over an image, with its wrapping counters, meets sections with the
headers `hs`, whose writes work, and then one with the header `h`, whose write fails. -/
inductive FailsAt (o : Outcomes) (dst : UInt32) :
    Memory → UInt32 → UInt32 → Nat → List Header → Header → Prop where
  | here {ram : Memory} {allLen ramOffset : UInt32} {n : Nat} (hlen : allLen ≠ 0)
      (hend : (header ram (sysLoadAddr + ramOffset)).magicNum ≠ magicFileEnd)
      (hfail : (header ram (sysLoadAddr + ramOffset)).filelen = 0 ∨ o.flashWrite n ≠ 0) :
      FailsAt o dst ram allLen ramOffset n [] (header ram (sysLoadAddr + ramOffset))
  | next {ram : Memory} {allLen ramOffset : UInt32} {n : Nat} {hs : List Header} {h : Header}
      (hlen : allLen ≠ 0)
      (hend : (header ram (sysLoadAddr + ramOffset)).magicNum ≠ magicFileEnd)
      (hfile : (header ram (sysLoadAddr + ramOffset)).filelen ≠ 0) (hok : o.flashWrite n = 0)
      (hrest : FailsAt o dst (sectionRam dst ram (sysLoadAddr + ramOffset))
        (allLen - ((header ram (sysLoadAddr + ramOffset)).filelen + 0x24))
        (ramOffset + ((header ram (sysLoadAddr + ramOffset)).filelen + 0x24)) (n + 1) hs h) :
      FailsAt o dst ram allLen ramOffset n (header ram (sysLoadAddr + ramOffset) :: hs) h

/-- One of the sections is a device tree. -/
def HasDtb (hs : List Header) : Prop := ∃ h ∈ hs, h.magicNum = magicDtb

/-- From `s` to `t` sections with the headers `hs` were tried. -/
structure Tried (c : UpdateConfig V) (o : Outcomes) (s t : UpdateState V) (hs : List Header) :
    Prop where
  dtbOffset : t.env .dtbOffset = hs.foldl (dtbOffsetStep c) (s.env .dtbOffset)
  dtbLen : t.env .dtbLen = hs.foldl (dtbLenStep c) (s.env .dtbLen)
  kernelOffset : t.env .kernelOffset = s.env .kernelOffset
  unsaved : o.envSave = false ∨ ¬ HasDtb hs → t.saved = s.saved
  savedKernel : o.envSave = true → HasDtb hs → t.saved .kernelOffset = s.env .kernelOffset

theorem Tried.trans {hs hs' : List Header} (h : Tried c o s t hs) (h' : Tried c o t u hs') :
    Tried c o s u (hs ++ hs') where
  dtbOffset := by rw [h'.dtbOffset, h.dtbOffset, List.foldl_append]
  dtbLen := by rw [h'.dtbLen, h.dtbLen, List.foldl_append]
  kernelOffset := h'.kernelOffset.trans h.kernelOffset
  unsaved hor := by
    have hleft : o.envSave = false ∨ ¬ HasDtb hs :=
      hor.imp_right fun hnot ⟨x, hmem, hx⟩ => hnot ⟨x, List.mem_append_left _ hmem, hx⟩
    have hright : o.envSave = false ∨ ¬ HasDtb hs' :=
      hor.imp_right fun hnot ⟨x, hmem, hx⟩ => hnot ⟨x, List.mem_append_right _ hmem, hx⟩
    exact (h'.unsaved hright).trans (h.unsaved hleft)
  savedKernel hsave := by
    rintro ⟨x, hmem, hx⟩
    by_cases hlast : HasDtb hs'
    · exact (h'.savedKernel hsave hlast).trans h.kernelOffset
    · rcases List.mem_append.mp hmem with hmem | hmem
      · rw [h'.unsaved (.inr hlast)]
        exact h.savedKernel hsave ⟨x, hmem, hx⟩
      · exact absurd ⟨x, hmem, hx⟩ hlast

theorem saved_writeAllDtb_of_not (hsave : o.envSave = false) (s : UpdateState V) (h : Header)
    (loadaddr : UInt32) : (writeAllDtb c o s h loadaddr).saved = s.saved := by
  rw [writeAllDtb_eq, UpdateState.envSave_saved, hsave]
  show (setDtbOffset c o s h.flashOffset).saved = s.saved
  unfold setDtbOffset
  split
  · rw [UpdateState.envSave_saved, hsave]
    rfl
  · rfl

theorem saved_afterWrite {addr : UInt32} (hmagic : (header s.ram addr).magicNum = magicDtb)
    (hsave : o.envSave = true) {name : EnvVar} (hname : name ≠ .fileaddr) :
    (afterWrite o (writeAllDtb c o) s addr).saved name =
      (afterWrite o (writeAllDtb c o) s addr).env name := by
  obtain ⟨hsaved, hvar⟩ := env_afterWrite_eq o (writeAllDtb c o) s addr
  have hbefore : beforeWrite (writeAllDtb c o) s addr =
      writeAllDtb c o (readHeader s addr) (header s.ram addr) (addr + 0x20) := if_pos hmagic
  rw [hsaved, hvar name hname, hbefore, writeAllDtb_eq, UpdateState.envSave_saved, if_pos hsave,
    UpdateState.envSave_env]

theorem tried_afterWrite (c : UpdateConfig V) (o : Outcomes) (s : UpdateState V) (addr : UInt32) :
    Tried c o s (afterWrite o (writeAllDtb c o) s addr) [header s.ram addr] := by
  obtain ⟨hoffset, hlen⟩ := env_afterWrite (dtbEnv_writeAllDtb (c := c) (o := o)) o s addr
  obtain ⟨hsaved, hvar⟩ := env_afterWrite_eq o (writeAllDtb c o) s addr
  have hkernel : (afterWrite o (writeAllDtb c o) s addr).env .kernelOffset =
      s.env .kernelOffset := by
    rw [hvar .kernelOffset (by decide)]
    unfold beforeWrite
    dsimp only
    split
    · obtain ⟨env, saved, heq, henv, -⟩ := setDtbOffset_eq (c := c) (o := o) (readHeader s addr)
        (header s.ram addr).flashOffset
      have hne : EnvVar.kernelOffset ≠ EnvVar.dtbLen := by decide
      rw [writeAllDtb_eq, UpdateState.envSave_env, UpdateState.envSetHex_env_of_ne c _ hne]
      show (setDtbOffset c o (readHeader s addr) _).env .kernelOffset = _
      rw [heq]
      exact henv .kernelOffset (by decide)
    · rfl
  refine ⟨hoffset, hlen, hkernel, fun hor => ?_, fun hsave hdtb => ?_⟩
  · rw [hsaved]
    by_cases hmagic : (header s.ram addr).magicNum = magicDtb
    · have hsave : o.envSave = false :=
        hor.resolve_right fun hnot => hnot ⟨_, List.mem_singleton_self _, hmagic⟩
      have hbefore : beforeWrite (writeAllDtb c o) s addr =
          writeAllDtb c o (readHeader s addr) (header s.ram addr) (addr + 0x20) := if_pos hmagic
      rw [hbefore, saved_writeAllDtb_of_not hsave]
      rfl
    · have hbefore : beforeWrite (writeAllDtb c o) s addr = readHeader s addr := if_neg hmagic
      rw [hbefore]
      rfl
  · obtain ⟨x, hmem, hx⟩ := hdtb
    rw [List.mem_singleton.mp hmem] at hx
    rw [saved_afterWrite hx hsave (by decide), hkernel]

/-- When the loop returns an error, a write failed: the sections before it and its own were tried,
and it is the last one that was. -/
theorem failsAt_of_loop {fuel : Nat} {allLen ramOffset : UInt32} {r : Int × UpdateState V}
    (h : writeAllLoop c o fuel allLen ramOffset s = some r) (hret : r.1 ≠ 0) :
    ∃ hs h, FailsAt o (c.dtbAddr s.env) s.ram allLen ramOffset s.flashWrites.length hs h ∧
      Tried c o s r.2 (hs ++ [h]) ∧
      (h.magicNum = magicDtb → o.envSave = true →
        ∀ name, name ≠ .fileaddr → r.2.saved name = r.2.env name) := by
  induction fuel generalizing allLen ramOffset s with
  | zero => cases h
  | succ fuel ih =>
    by_cases hlen : allLen = 0
    · rw [writeAllLoop, if_pos hlen] at h
      cases h
      exact absurd rfl hret
    obtain ⟨fuel', hfuel, hcases⟩ := writeAllLoop_cases rfl hlen h
    cases hfuel
    rcases hcases with ⟨-, rfl⟩ | ⟨hend, hfail, rfl⟩ | ⟨hend, hok, hrest⟩
    · exact absurd rfl hret
    · exact ⟨[], _, .here hlen hend (writeRet_ne_zero.mp hfail), tried_afterWrite c o s _,
        fun hmagic hsave name hname => saved_afterWrite hmagic hsave hname⟩
    · have hboth := (not_congr writeRet_ne_zero).mp (not_not.mpr hok)
      rw [not_or, not_not] at hboth
      have hwritten : Written c s (afterWrite o (writeAllDtb c o) s (sysLoadAddr + ramOffset))
        (sysLoadAddr + ramOffset) := written_afterWrite frames_writeAllDtb
      obtain ⟨hs, h, hfails, htried, hsaved⟩ := ih hrest
      rw [hwritten.ram, hwritten.dtbAddr, hwritten.flashWrites, if_neg hboth.1] at hfails
      exact ⟨_ :: hs, h, .next hlen hend hboth.1 hboth.2 hfails,
        (tried_afterWrite c o s _).trans htried, hsaved⟩

/-! ## The variables of the section that failed -/

/-- All device trees among the sections are at the offset that `dtb_offset` names. -/
def SameOffset (c : UpdateConfig V) (value : Option V) (hs : List Header) : Prop :=
  ∀ h ∈ hs, h.magicNum = magicDtb → h.flashOffset = (value.bind c.ofHex).getD c.fdtFlashAddr

theorem sameOffset_concat {value : Option V} {hs : List Header} {h : Header} :
    SameOffset c value (hs ++ [h]) ↔ SameOffset c value hs ∧
      (h.magicNum = magicDtb → h.flashOffset = (value.bind c.ofHex).getD c.fdtFlashAddr) := by
  unfold SameOffset
  rw [List.forall_mem_append, List.forall_mem_singleton]

theorem dtbOffsetStep_cases {value : Option V} {hs : List Header} {h : Header}
    (hprior : SameOffset c value hs ∧ hs.foldl (dtbOffsetStep c) value = value ∨
      ¬ SameOffset c value hs ∧ ∃ offset, hs.foldl (dtbOffsetStep c) value = some (c.toHex offset))
    (hmagic : h.magicNum = magicDtb) :
    SameOffset c value (hs ++ [h]) ∧ (hs ++ [h]).foldl (dtbOffsetStep c) value = value ∨
      ¬ SameOffset c value (hs ++ [h]) ∧
        (hs ++ [h]).foldl (dtbOffsetStep c) value = some (c.toHex h.flashOffset) := by
  have hfold : (hs ++ [h]).foldl (dtbOffsetStep c) value =
      dtbOffsetStep c (hs.foldl (dtbOffsetStep c) value) h := List.foldl_append
  rw [hfold, sameOffset_concat]
  unfold dtbOffsetStep
  rcases hprior with ⟨hsame, hvalue⟩ | ⟨hdiffers, offset, hvalue⟩
  · unfold dtbOffsetStep at hvalue
    rw [hvalue]
    by_cases hoffset : (value.bind c.ofHex).getD c.fdtFlashAddr = h.flashOffset
    · exact .inl ⟨⟨hsame, fun _ => hoffset.symm⟩, if_neg fun hne => hne.2 hoffset⟩
    · exact .inr ⟨fun hall => hoffset (hall.2 hmagic).symm, if_pos ⟨hmagic, hoffset⟩⟩
  · unfold dtbOffsetStep at hvalue
    rw [hvalue]
    refine .inr ⟨fun hall => hdiffers hall.1, ?_⟩
    have hread : ((some (c.toHex offset)).bind c.ofHex).getD c.fdtFlashAddr = offset := by
      show (c.ofHex (c.toHex offset)).getD _ = offset
      rw [c.ofHex_toHex]
      rfl
    rw [hread]
    by_cases hoffset : offset = h.flashOffset
    · rw [if_neg fun hne => hne.2 hoffset, hoffset]
    · rw [if_pos ⟨hmagic, hoffset⟩]

theorem foldl_dtbOffsetStep (value : Option V) (hs : List Header) :
    SameOffset c value hs ∧ hs.foldl (dtbOffsetStep c) value = value ∨
      ¬ SameOffset c value hs ∧
        ∃ offset, hs.foldl (dtbOffsetStep c) value = some (c.toHex offset) := by
  induction hs using List.reverseRecOn with
  | nil => exact .inl ⟨nofun, rfl⟩
  | append_singleton hs h ih =>
    by_cases hmagic : h.magicNum = magicDtb
    · exact (dtbOffsetStep_cases ih hmagic).imp_right fun ⟨hdiffers, hvalue⟩ =>
        ⟨hdiffers, h.flashOffset, hvalue⟩
    · have hfold : (hs ++ [h]).foldl (dtbOffsetStep c) value =
          hs.foldl (dtbOffsetStep c) value :=
        List.foldl_append.trans (if_neg fun hand => hmagic hand.1)
      rw [hfold, sameOffset_concat, and_iff_left fun h => absurd h hmagic]
      exact ih

/-- The variables that refer to a section. -/
def Header.vars (h : Header) : List EnvVar :=
  if h.magicNum = magicDtb then [.dtbOffset, .dtbLen]
  else if h.magicNum = magicKernel then [.kernelOffset]
  else []

/-- `_do_write_all_` had nothing to change for the section `h` that fails after the sections `hs`.
For a device tree, that its variables already describe it and are saved; for a kernel, that what an
earlier device tree saved was saved before. -/
def NothingToChange (c : UpdateConfig V) (o : Outcomes) (s : UpdateState V) (hs : List Header)
    (h : Header) : Prop :=
  (h.magicNum = magicDtb →
    (SameOffset c (s.env .dtbOffset) (hs ++ [h]) ∨
      s.env .dtbOffset = some (c.toHex h.flashOffset)) ∧
    s.env .dtbLen = some (c.toHex h.filelen) ∧
    (o.envSave = true →
      s.saved .dtbOffset = s.env .dtbOffset ∧ s.saved .dtbLen = s.env .dtbLen)) ∧
  (h.magicNum = magicKernel → o.envSave = true → HasDtb hs →
    s.saved .kernelOffset = s.env .kernelOffset)

theorem Tried.kept_iff {hs : List Header} {h : Header} (htried : Tried c o s t (hs ++ [h]))
    (hsaved : h.magicNum = magicDtb → o.envSave = true →
      ∀ name, name ≠ .fileaddr → t.saved name = t.env name) :
    (∀ name ∈ h.vars, Kept s t name) ↔ NothingToChange c o s hs h := by
  have hdistinct : magicKernel ≠ magicDtb := by decide
  unfold Header.vars NothingToChange
  by_cases hmagic : h.magicNum = magicDtb
  · have hkernel : h.magicNum ≠ magicKernel := fun hk => hdistinct (hk.symm.trans hmagic)
    have hlast (name : EnvVar) (hname : name ≠ .fileaddr) :
        t.saved name = if o.envSave = true then t.env name else s.saved name := by
      by_cases hsave : o.envSave = true
      · rw [if_pos hsave]
        exact hsaved hmagic hsave name hname
      · rw [if_neg hsave, htried.unsaved (.inl (Bool.eq_false_iff.mpr hsave))]
    have hlen : t.env .dtbLen = some (c.toHex h.filelen) := by
      rw [htried.dtbLen, List.foldl_append]
      exact if_pos hmagic
    have hoffset : t.env .dtbOffset = s.env .dtbOffset ↔
        SameOffset c (s.env .dtbOffset) (hs ++ [h]) ∨
          s.env .dtbOffset = some (c.toHex h.flashOffset) := by
      rw [htried.dtbOffset]
      rcases dtbOffsetStep_cases (foldl_dtbOffsetStep (s.env .dtbOffset) hs) hmagic with
        ⟨hsame, hvalue⟩ | ⟨hdiffers, hvalue⟩
      · exact iff_of_true hvalue (.inl hsame)
      · rw [hvalue]
        exact ⟨fun heq => .inr heq.symm, fun hor => (hor.resolve_left hdiffers).symm⟩
    rw [if_pos hmagic, List.forall_mem_cons, List.forall_mem_singleton,
      kept_iff_of_saved (hlast .dtbOffset (by decide)),
      kept_iff_of_saved (hlast .dtbLen (by decide)), hoffset, hlen]
    constructor
    · rintro ⟨⟨hkept, hsame⟩, hkept', hsame'⟩
      exact ⟨fun _ => ⟨hkept, hkept'.symm, fun hsave => ⟨hsame hsave, hsame' hsave⟩⟩,
        fun hk => absurd hk hkernel⟩
    · rintro ⟨hdtb, -⟩
      obtain ⟨hkept, hkept', hsame⟩ := hdtb hmagic
      exact ⟨⟨hkept, fun hsave => (hsame hsave).1⟩, hkept'.symm, fun hsave => (hsame hsave).2⟩
  rw [if_neg hmagic]
  by_cases hkernel : h.magicNum = magicKernel
  · rw [if_pos hkernel, List.forall_mem_singleton]
    have hdtbs : HasDtb (hs ++ [h]) ↔ HasDtb hs := by
      unfold HasDtb
      simp only [List.mem_append, List.mem_singleton, or_and_right, exists_or, exists_eq_left,
        hmagic, or_false]
    constructor
    · rintro ⟨-, hkept⟩
      refine ⟨fun hm => absurd hm hmagic, fun _ hsave hdtb => ?_⟩
      rw [← hkept]
      exact htried.savedKernel hsave (hdtbs.mpr hdtb)
    · rintro ⟨-, hcond⟩
      refine ⟨htried.kernelOffset, ?_⟩
      by_cases hsaves : o.envSave = true ∧ HasDtb hs
      · rw [htried.savedKernel hsaves.1 (hdtbs.mpr hsaves.2)]
        exact (hcond hkernel hsaves.1 hsaves.2).symm
      · refine congrFun (htried.unsaved ?_) _
        rcases not_and_or.mp hsaves with hsave | hnone
        · exact .inl (Bool.eq_false_iff.mpr hsave)
        · exact .inr fun hdtb => hnone (hdtbs.mp hdtb)
  · rw [if_neg hkernel]
    exact iff_of_true nofun
      ⟨fun hm => absurd hm hmagic, fun hk => absurd hk hkernel⟩

/-- **A failed update keeps the boot variables exactly when it had nothing to change.**  After a
failed write `do_update_kernel` keeps `kernel_offset` when it already is the offset of the kernel
partition; `do_update_dtb` keeps `dtb_offset` and `dtb_len` when the partition is where
`dtb_offset` says, `dtb_len` is the length being written and, if saving works, both were saved
before; `_do_write_all_` keeps the variables of the section that failed under `NothingToChange`. -/
theorem failedUpdate_keeps_iff (c : UpdateConfig V) (o : Outcomes) (ram : Memory)
    (env saved : Environment V) (dtbLen : UInt32) :
    let s := UpdateState.start ram env saved dtbLen
    (∀ offset size transfer, FailedWrite (doUpdateKernel c o s offset size transfer) →
      (Kept s (doUpdateKernel c o s offset size transfer).2 .kernelOffset ↔
        env .kernelOffset = some (c.toHex offset.value))) ∧
    (∀ transfer lookup, FailedWrite (doUpdateDtb c o s transfer lookup) →
      (Kept s (doUpdateDtb c o s transfer lookup).2 .dtbOffset ∧
          Kept s (doUpdateDtb c o s transfer lookup).2 .dtbLen ↔
        (lookup.value = 0 ∨ lookup.value = c.dtbOffset env) ∧
          env .dtbLen = some (c.toHex (dtbWriteLen transfer lookup)) ∧
          (o.envSave = true → saved .dtbOffset = env .dtbOffset ∧ saved .dtbLen = env .dtbLen))) ∧
    (∀ fuel allLen r, doWriteAll c o s fuel allLen = some r → FailedWrite r →
      ∃ hs h, FailsAt o (c.dtbAddr env) ram (allLen - 0x100) 0x100 0 hs h ∧
        ((∀ name ∈ h.vars, Kept s r.2 name) ↔ NothingToChange c o s hs h)) := by
  refine ⟨fun offset size transfer hfail => doUpdateKernel_kept_iff rfl hfail,
    fun transfer lookup hfail => doUpdateDtb_kept_iff rfl hfail, fun fuel allLen r hrun hfail => ?_⟩
  obtain ⟨hs, h, hfails, htried, hsaved⟩ := failsAt_of_loop hrun hfail.1
  exact ⟨hs, h, hfails, htried.kept_iff hsaved⟩

/-- A flash that does not write; the environment is saved all the same. -/
def Outcomes.noFlash : Outcomes := ⟨fun _ => -1, true⟩

/-- A memory with a device tree of four bytes at the load address. -/
def dtbRam : Memory := ofBytes sysLoadAddr [0xd0, 0x0d, 0xfe, 0xed]

/-- A partition that is found without loading the device tree. -/
def foundAt (value : UInt32) : Lookup := ⟨false, dtbRam, value⟩

/-- A transfer of the bytes in `dtbRam`. -/
def dtbTransfer : Transfer := .dfu 0 dtbRam 4

/-- An environment that describes a kernel at 0xa0000 and a device tree of four bytes at 0x90000. -/
def knownEnv : Environment (List Nat)
  | .kernelOffset => some (hexDigits 0xa0000)
  | .dtbOffset => some (hexDigits 0x90000)
  | .dtbLen => some (hexDigits 4)
  | _ => none

theorem failedUpdate_keeps_knownEnv :
    let s := UpdateState.start dtbRam knownEnv knownEnv 0
    Kept s (doUpdateKernel hexConfig .noFlash s (foundAt 0xa0000) (foundAt 0x200000)
        dtbTransfer).2 .kernelOffset ∧
      Kept s (doUpdateDtb hexConfig .noFlash s dtbTransfer (foundAt 0x90000)).2 .dtbOffset ∧
      Kept s (doUpdateDtb hexConfig .noFlash s dtbTransfer (foundAt 0x90000)).2 .dtbLen := by
  obtain ⟨hkernel, hdtb, -⟩ :=
    failedUpdate_keeps_iff hexConfig .noFlash dtbRam knownEnv knownEnv 0
  refine ⟨(hkernel _ _ _ ⟨by decide +kernel, by decide +kernel⟩).mpr rfl,
    (hdtb _ _ ⟨by decide +kernel, by decide +kernel⟩).mpr ⟨.inr ?_, rfl, fun _ => ⟨rfl, rfl⟩⟩⟩
  decide

/-- An image of a single device tree of four bytes, for 0x90000. -/
def dtbImage : Memory :=
  ofBytes (imageAddr 0x100) ([0x64, 0x74, 0x62, 0] ++ List.replicate 16 0 ++ [0, 9, 0, 0] ++
    List.replicate 4 0 ++ [0, 0, 0, 4] ++ [0xd0, 0x0d, 0xfe, 0xed])

/-- **The hole.**  With no variable set, all three commands fail in the flash write and leave
variables behind that describe what was not written, `do_update_dtb` and `_do_write_all_` in the
saved environment, too. -/
theorem not_failedUpdate_keeps :
    let s := UpdateState.start dtbRam (fun _ => none) (fun _ => none) 0
    let kernel := doUpdateKernel hexConfig .noFlash s (foundAt 0xa0000) (foundAt 0x200000)
      dtbTransfer
    let dtb := doUpdateDtb hexConfig .noFlash s dtbTransfer (foundAt 0x90000)
    (FailedWrite kernel ∧ ¬ Kept s kernel.2 .kernelOffset) ∧
      (FailedWrite dtb ∧ dtb.2.saved .dtbOffset = some (hexDigits 0x90000) ∧
        ¬ Kept s dtb.2 .dtbOffset) ∧
      ∃ r, doWriteAll hexConfig .noFlash (.start dtbImage (fun _ => none) (fun _ => none) 0) 1
          0x128 = some r ∧ FailedWrite r ∧ r.2.saved .dtbOffset = some (hexDigits 0x90000) := by
  have hkernel : (doUpdateKernel hexConfig .noFlash
      (.start dtbRam (fun _ => none) (fun _ => none) 0) (foundAt 0xa0000) (foundAt 0x200000)
      dtbTransfer).2.env .kernelOffset = some (hexDigits 0xa0000) := rfl
  have hdtb : (doUpdateDtb hexConfig .noFlash (.start dtbRam (fun _ => none) (fun _ => none) 0)
      dtbTransfer (foundAt 0x90000)).2.saved .dtbOffset = some (hexDigits 0x90000) := by
    decide +kernel
  have hrun : (doWriteAll hexConfig .noFlash (.start dtbImage (fun _ => none) (fun _ => none) 0) 1
      0x128).map (fun r => (r.1, r.2.calls.length, r.2.saved .dtbOffset)) =
      some (-1, 1, some (hexDigits 0x90000)) := by
    decide +kernel
  obtain ⟨r, hr, heq⟩ := Option.map_eq_some_iff.mp hrun
  have hret : r.1 = -1 := congrArg Prod.fst heq
  have hcalls : r.2.calls.length = 1 := congrArg (fun p => p.2.1) heq
  refine ⟨⟨⟨by decide +kernel, by decide +kernel⟩, fun h => ?_⟩,
    ⟨⟨by decide +kernel, by decide +kernel⟩, hdtb, fun h => ?_⟩, r, hr, ⟨?_, ?_⟩,
    congrArg (fun p => p.2.2) heq⟩
  · exact Option.some_ne_none _ (hkernel.symm.trans h.1)
  · exact Option.some_ne_none _ (hdtb.symm.trans h.2)
  · rw [hret]
    decide
  · intro hnil
    rw [hnil] at hcalls
    cases hcalls

end RealtekIpcam.Uboot
