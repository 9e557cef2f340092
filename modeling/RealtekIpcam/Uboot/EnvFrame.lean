import RealtekIpcam.Uboot.EnvSave

/-!
# What a save leaves alone

`env_sf_save` erases whole sectors.  When a sector is larger than the environment it reads the rest
of the sector before and writes it back.  When it is not, the environment may still end within a
sector, and what follows it there is lost.

A save is a row of byte operations, and `run_replaceOps` says what they make of every byte of the
flash.  From this, `saveFrame_iff` says when a save changes more than the copy it writes and the
flags of the other one.
-/

namespace RealtekIpcam.Uboot

open NorFlash

namespace EnvLayout

variable {E : Type*}

/-! ## The frame -/

/-- The byte belongs to the copy at the offset. -/
def InCopy (c : EnvLayout) (offset x : Nat) : Prop := offset ≤ x ∧ x < offset + c.envSize

/-- The byte follows the copy at the offset, in its last sector. -/
def InGap (c : EnvLayout) (offset x : Nat) : Prop :=
  offset + c.envSize ≤ x ∧ x < offset + eraseSize c.envSize c.sectSize

/-- A save that returns 0 changes nothing but the copy that it writes, and the flags of the other
one. -/
structure SaveFrame (c : EnvLayout) (T : EnvTable E) (calls : SaveCalls) (b : Board E) : Prop where
  plain : (c.envSfSavePlain T calls b).ret = 0 → ∀ x, ¬ c.InCopy c.offset x →
    (c.envSfSavePlain T calls b).flash b.flash x = b.flash x
  redund : (c.envSfSaveRedund T calls b).ret = 0 → ∀ x, ¬ c.InCopy (c.saveOffsets b).1 x →
    x ≠ (c.saveOffsets b).2 + flagsOffset →
      (c.envSfSaveRedund T calls b).flash b.flash x = b.flash x

/-- Nothing fails in the save of one copy, when it does not need the rest of a sector. -/
def PlainWorks (c : EnvLayout) (T : EnvTable E) (calls : SaveCalls) (b : Board E) : Prop :=
  calls.setupFlashDevice = 0 ∧ (T.hexport (c.envSize - 4) b.htab).isSome ∧
    calls.spiFlashErase.ret = 0 ∧ calls.spiFlashWriteEnv.ret = 0

/-- Nothing fails in the save of two copies, when it does not need the rest of a sector. -/
def RedundWorks (c : EnvLayout) (T : EnvTable E) (calls : SaveCalls) (b : Board E) : Prop :=
  calls.setupFlashDevice = 0 ∧ (T.hexport (c.envSize - envHeaderSize) b.htab).isSome ∧
    calls.spiFlashErase.ret = 0 ∧ calls.spiFlashWriteEnv.ret = 0 ∧ calls.spiFlashWriteFlag.ret = 0

/-! ## Every byte -/

variable {c : EnvLayout} {T : EnvTable E} {calls : SaveCalls} {b : Board E} {f : Flash}
  {offset x : Nat} {bytes : List UInt8}

theorem eraseSize_of_lt (hsect : c.envSize < c.sectSize) :
    eraseSize c.envSize c.sectSize = c.sectSize := by
  have hpos := c.envSize_pos
  have hone : (c.envSize + c.sectSize - 1) / c.sectSize = 1 :=
    Nat.div_eq_of_lt_le (by omega) (by omega)
  unfold eraseSize
  rw [hone, Nat.one_mul]

theorem not_inGap_of_dvd (hdvd : c.sectSize ∣ c.envSize) : ¬ c.InGap offset x := by
  obtain ⟨n, hn⟩ := hdvd
  have hpos := c.sectSize_pos
  have hdiv : (c.envSize + c.sectSize - 1) / c.sectSize = n := by
    refine Nat.div_eq_of_lt_le ?_ ?_
    · rw [Nat.mul_comm, ← hn]
      omega
    · rw [Nat.add_mul, Nat.mul_comm n, ← hn]
      omega
  rintro ⟨hlo, hhi⟩
  unfold eraseSize at hhi
  rw [hdiv, Nat.mul_comm, ← hn] at hhi
  omega

theorem within_take_programOps :
    Within offset (offset + c.envSize) (programOps offset (bytes.take c.envSize)) := by
  refine (within_programOps offset _).mono (Nat.le_refl _) ?_
  have := List.length_take_le c.envSize bytes
  omega

theorem run_erase_program (hlo : offset + c.envSize ≤ x)
    (hhi : x < offset + eraseSize c.envSize c.sectSize) (f : Flash) :
    run f (eraseOps offset (eraseSize c.envSize c.sectSize) ++
      programOps offset (bytes.take c.envSize)) x = 0xff := by
  rw [run_append, run_of_ne fun op hop => ?_]
  · exact run_eraseOps (by omega) hhi
  · have := within_take_programOps op hop
    omega

/-- **What replacing a copy makes of the other bytes.**  Those after the copy in its last sector are
erased, unless the sector is the larger one. -/
theorem run_replaceOps (hout : ¬ c.InCopy offset x) :
    (c.InGap offset x ∧ c.sectSize ≤ c.envSize →
      run f (c.replaceOps f offset bytes) x = 0xff) ∧
    (¬ (c.InGap offset x ∧ c.sectSize ≤ c.envSize) →
      run f (c.replaceOps f offset bytes) x = f x) := by
  have hle := le_eraseSize c.envSize c.sectSize_pos
  unfold replaceOps
  rw [← List.append_assoc, run_append]
  by_cases hsect : c.sectSize > c.envSize
  · rw [if_pos hsect]
    refine ⟨fun h => absurd h.2 (Nat.not_le_of_gt hsect), fun _ => ?_⟩
    have herase := eraseSize_of_lt hsect
    by_cases hgap : c.InGap offset x
    · -- The rest of the sector is written back.
      have herased : ∀ y, offset + c.envSize ≤ y → y < offset + c.envSize +
          (readBytes f (offset + c.envSize) (c.sectSize - c.envSize)).length →
          run f (eraseOps offset (eraseSize c.envSize c.sectSize) ++
            programOps offset (bytes.take c.envSize)) y = 0xff := by
        intro y hlo hhi
        rw [length_readBytes] at hhi
        exact run_erase_program hlo (by omega) f
      have hsaved := readBytes_programOps herased
      rw [length_readBytes] at hsaved
      obtain ⟨hlo, hhi⟩ := hgap
      exact eq_of_readBytes_eq hsaved hlo (by omega)
    · unfold InGap at hgap
      unfold InCopy at hout
      rw [run_of_ne fun op hop => ?_, run_append, run_of_ne fun op hop => ?_,
        run_of_ne fun op hop => ?_]
      · have := within_eraseOps op hop
        omega
      · have := within_take_programOps op hop
        omega
      · have := within_programOps _ _ op hop
        rw [length_readBytes] at this
        omega
  · rw [if_neg hsect]
    refine ⟨fun h => run_erase_program h.1.1 h.1.2 f, fun h => ?_⟩
    have hgap : ¬ c.InGap offset x := fun hgap => h ⟨hgap, Nat.le_of_not_gt hsect⟩
    unfold InGap at hgap
    unfold InCopy at hout
    show run f (_ ++ _) x = f x
    rw [run_append, run_of_ne fun op hop => ?_, run_of_ne fun op hop => ?_]
    · have := within_eraseOps op hop
      omega
    · have := within_take_programOps op hop
      omega

theorem ret_of_issue {cmds : List (List ByteOp × CmdResult)} (h : (issue cmds).2 = 0) :
    ∀ cmd ∈ cmds, cmd.2.ret = 0 := by
  induction cmds with
  | nil => exact nofun
  | cons cmd cmds ih =>
    obtain ⟨ops, r⟩ := cmd
    unfold issue at h
    by_cases hret : r.ret ≠ 0
    · rw [if_pos hret] at h
      exact absurd h hret
    · rw [if_neg hret] at h
      intro cmd hcmd
      rcases List.mem_cons.mp hcmd with rfl | hrest
      · exact not_not.mp hret
      · exact ih h cmd hrest

theorem replaceCommands_of_le (hsect : c.sectSize ≤ c.envSize) (calls : SaveCalls) (f : Flash)
    (offset : Nat) (bytes : List UInt8) : c.replaceCommands calls f offset bytes =
      [(eraseOps offset (eraseSize c.envSize c.sectSize), calls.spiFlashErase),
        (programOps offset (bytes.take c.envSize), calls.spiFlashWriteEnv)] := by
  unfold replaceCommands
  dsimp only
  rw [if_neg (show ¬ c.sectSize > c.envSize from Nat.not_lt_of_le hsect)]

theorem plain_frame_iff (c : EnvLayout) (T : EnvTable E) (calls : SaveCalls) (b : Board E) :
    ((c.envSfSavePlain T calls b).ret = 0 → ∀ x, ¬ c.InCopy c.offset x →
      (c.envSfSavePlain T calls b).flash b.flash x = b.flash x) ↔
    (c.sectSize ≤ c.envSize → c.PlainWorks T calls b → ∀ x, c.InGap c.offset x →
      b.flash x = 0xff) := by
  unfold LockedSave.flash
  constructor
  · intro hframe hsect ⟨hsetup, hfits, herase, hwrite⟩ x hgap
    rcases plain_cases c T calls b with ⟨-, hwhy⟩ | ⟨-, -, -, hlt, -⟩ |
      ⟨envNew, -, -, -, hret, hops⟩
    · rcases hwhy with h | ⟨-, h | h⟩
      · exact absurd hsetup h
      · exact absurd hsect (Nat.not_le_of_gt h)
      · unfold envExportPlain at h
        rw [Option.map_eq_none_iff.mp h] at hfits
        exact absurd hfits (by decide)
    · exact absurd hsect (Nat.not_le_of_gt hlt)
    · have hissue : (issue (c.replaceCommands calls b.flash c.offset envNew.bytes)).2 = 0 := by
        rw [replaceCommands_of_le hsect]
        exact issue_ret_of_forall (List.forall_mem_cons.mpr
          ⟨herase, List.forall_mem_singleton.mpr hwrite⟩)
      have hout : ¬ c.InCopy c.offset x := fun hin => absurd hin.2 (Nat.not_lt_of_le hgap.1)
      have hx := hframe (hret.trans hissue) x hout
      rw [hops, issue_of_ret hissue, flatten_replaceCommands,
        (run_replaceOps hout).1 ⟨hgap, hsect⟩] at hx
      exact hx.symm
  · intro hcond hret x hout
    rcases plain_cases c T calls b with ⟨hne, -⟩ | ⟨-, hops, -⟩ |
      ⟨envNew, hexp, hsetup, -, hissue, hops⟩
    · exact absurd hret hne
    · rw [hops]
      rfl
    · have hdone := hissue.symm.trans hret
      rw [hops, issue_of_ret hdone, flatten_replaceCommands]
      by_cases hgap : c.InGap c.offset x ∧ c.sectSize ≤ c.envSize
      · have hall := ret_of_issue hdone
        rw [replaceCommands_of_le hgap.2] at hall
        obtain ⟨data, hdata, -⟩ := Option.map_eq_some_iff.mp hexp
        have hworks : c.PlainWorks T calls b := ⟨hsetup, Option.isSome_iff_exists.mpr ⟨data, hdata⟩,
          hall _ List.mem_cons_self, hall _ (List.mem_cons_of_mem _ List.mem_cons_self)⟩
        rw [(run_replaceOps hout).1 hgap, hcond hgap.2 hworks x hgap.1]
      · exact (run_replaceOps hout).2 hgap

theorem redund_frame_iff (c : EnvLayout) (T : EnvTable E) (calls : SaveCalls) (b : Board E) :
    ((c.envSfSaveRedund T calls b).ret = 0 → ∀ x, ¬ c.InCopy (c.saveOffsets b).1 x →
      x ≠ (c.saveOffsets b).2 + flagsOffset →
        (c.envSfSaveRedund T calls b).flash b.flash x = b.flash x) ↔
    (c.sectSize ≤ c.envSize → c.RedundWorks T calls b → ∀ x, c.InGap (c.saveOffsets b).1 x →
      x ≠ (c.saveOffsets b).2 + flagsOffset → b.flash x = 0xff) := by
  unfold LockedSave.flash
  have hmark {x : Nat} (hx : x ≠ (c.saveOffsets b).2 + flagsOffset) (g : Flash) :
      run g [.program ((c.saveOffsets b).2 + flagsOffset) envRedundObsolete] x = g x :=
    Function.update_of_ne hx _ _
  constructor
  · intro hframe hsect ⟨hsetup, hfits, herase, hwrite, hflag⟩ x hgap hx
    rcases redund_cases c T calls b with ⟨-, hwhy⟩ | ⟨envNew, b', -, -, hret, hops⟩
    · rcases hwhy with h | h | h
      · exact absurd hsetup h
      · exact absurd hsect (Nat.not_le_of_gt h)
      · unfold envExport at h
        obtain ⟨data, hdata⟩ := Option.isSome_iff_exists.mp hfits
        rw [hdata] at h
        exact absurd h (by simp)
    · have hissue : (issue (c.redundCommands calls b envNew)).2 = 0 := by
        unfold redundCommands
        rw [replaceCommands_of_le hsect]
        exact issue_ret_of_forall (List.forall_mem_cons.mpr
          ⟨herase, List.forall_mem_cons.mpr ⟨hwrite, List.forall_mem_singleton.mpr hflag⟩⟩)
      have hout : ¬ c.InCopy (c.saveOffsets b).1 x :=
        fun hin => absurd hin.2 (Nat.not_lt_of_le hgap.1)
      have hsame := hframe (hret.trans hissue) x hout hx
      rw [hops, issue_of_ret hissue, flatten_redundCommands, run_append, hmark hx,
        (run_replaceOps hout).1 ⟨hgap, hsect⟩] at hsame
      exact hsame.symm
  · intro hcond hret x hout hx
    rcases redund_cases c T calls b with ⟨hne, -⟩ | ⟨envNew, b', hexp, hsetup, hissue, hops⟩
    · exact absurd hret hne
    · have hdone := hissue.symm.trans hret
      rw [hops, issue_of_ret hdone, flatten_redundCommands, run_append, hmark hx]
      by_cases hgap : c.InGap (c.saveOffsets b).1 x ∧ c.sectSize ≤ c.envSize
      · have hall := ret_of_issue hdone
        unfold redundCommands at hall
        rw [replaceCommands_of_le hgap.2] at hall
        have hfits : (T.hexport (c.envSize - envHeaderSize) b.htab).isSome := by
          unfold envExport at hexp
          cases hdata : T.hexport (c.envSize - envHeaderSize) b.htab with
          | none =>
            rw [hdata] at hexp
            exact absurd hexp (by simp)
          | some data => rfl
        obtain ⟨herase, hrest⟩ := List.forall_mem_cons.mp hall
        obtain ⟨hwrite, hflag⟩ := List.forall_mem_cons.mp hrest
        have hworks : c.RedundWorks T calls b :=
          ⟨hsetup, hfits, herase, hwrite, hflag _ List.mem_cons_self⟩
        rw [(run_replaceOps hout).1 hgap, hcond hgap.2 hworks x hgap.1 hx]
      · exact (run_replaceOps hout).2 hgap

end EnvLayout

/-- **The frame of a save.**  For all sizes and contents, a save keeps to its frame exactly when the
sector is larger than the environment, or the environment is a number of whole sectors, or something
fails, or the bytes that follow the copy in its last sector are erased before. -/
theorem saveFrame_iff {E : Type*} (c : EnvLayout) (T : EnvTable E) (calls : SaveCalls)
    (b : Board E) : c.SaveFrame T calls b ↔
      c.envSize < c.sectSize ∨ c.sectSize ∣ c.envSize ∨
        (c.PlainWorks T calls b → ∀ x, c.InGap c.offset x → b.flash x = 0xff) ∧
        (c.RedundWorks T calls b → ∀ x, c.InGap (c.saveOffsets b).1 x →
          x ≠ (c.saveOffsets b).2 + flagsOffset → b.flash x = 0xff) := by
  have hsplit : c.SaveFrame T calls b ↔ _ ∧ _ :=
    ⟨fun h => ⟨h.plain, h.redund⟩, fun h => ⟨h.1, h.2⟩⟩
  rw [hsplit, EnvLayout.plain_frame_iff, EnvLayout.redund_frame_iff]
  by_cases hsect : c.sectSize ≤ c.envSize
  · by_cases hdvd : c.sectSize ∣ c.envSize
    · refine iff_of_true ⟨?_, ?_⟩ (.inr (.inl hdvd))
      · exact fun _ _ x hgap => absurd hgap (EnvLayout.not_inGap_of_dvd hdvd)
      · exact fun _ _ x hgap => absurd hgap (EnvLayout.not_inGap_of_dvd hdvd)
    · simp only [hsect, hdvd, true_implies, Nat.not_lt_of_le hsect, false_or]
  · exact iff_of_true ⟨fun h => absurd h hsect, fun h => absurd h hsect⟩
      (.inl (Nat.lt_of_not_le hsect))

/-- An environment of ten bytes, in sectors of eight. -/
def unevenLayout : EnvLayout where
  offset := 0
  offsetRedund := 16
  envSize := 10
  sectSize := 8
  envSize_pos := by decide
  sectSize_pos := by decide

/-- **The hole.**  The ten bytes end in the second sector, and the save clears the rest of it. -/
theorem not_saveFrame_uneven : ¬ unevenLayout.SaveFrame textTable .ok
    { blankBoard with flash := fun _ => 0 } := by
  intro h
  have hbyte := h.plain (by decide +kernel) 10 (by unfold EnvLayout.InCopy; decide)
  exact absurd hbyte (by decide +kernel)

end RealtekIpcam.Uboot
