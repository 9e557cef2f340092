import RealtekIpcam.Uboot.Handover

/-!
# What the load of an uncompressed image writes

`image_decomp` does not touch an image that lies where it is to go.  Any other uncompressed image is
copied, by the processor or by the DMA engine, and the length is rounded up to a multiple of
eight for both.  The rounded length is what `*load_end` is computed from, while the limit is
compared with the length as it was.

The DMA engine is not among the sources; it is assumed to copy the bytes that it is told to.
-/

namespace RealtekIpcam.Uboot

open Ram

variable {ρ : Type} {lib : BootLib ρ} {ram : Memory} {load imageStart imageLen uncLen : UInt32}

/-- The DMA engine copies exactly the bytes it is told to. -/
def DmaExact (lib : BootLib ρ) : Prop :=
  ∀ ram src dst len, lib.dmaCopy ram src dst len = copy ram dst src len.toNat

/-- The image is loaded byte by byte and nothing else is written, or nothing at all. -/
structure CopiesExactly (lib : BootLib ρ) (ram : Memory)
    (load imageStart imageLen uncLen : UInt32) : Prop where
  failed : (imageDecomp lib ram ihCompNone load imageStart imageLen uncLen).1 ≠ 0 →
    (imageDecomp lib ram ihCompNone load imageStart imageLen uncLen).2.2 = ram
  image : (imageDecomp lib ram ihCompNone load imageStart imageLen uncLen).1 = 0 →
    readBytes (imageDecomp lib ram ihCompNone load imageStart imageLen uncLen).2.2 load
      imageLen.toNat = readBytes ram imageStart imageLen.toNat
  loadEnd : (imageDecomp lib ram ihCompNone load imageStart imageLen uncLen).1 = 0 →
    (imageDecomp lib ram ihCompNone load imageStart imageLen uncLen).2.1 = load + imageLen
  frame : SameOff load imageLen.toNat ram
    (imageDecomp lib ram ihCompNone load imageStart imageLen uncLen).2.2
  limit : SameOff load uncLen.toNat ram
    (imageDecomp lib ram ihCompNone load imageStart imageLen uncLen).2.2

/-- A length rounded up to a multiple of eight. -/
def roundUp8 (n : Nat) : Nat := (n + 7) / 8 * 8

/-- How many bytes are written: none of an image that stays where it is. -/
def writtenLen (load imageStart imageLen : UInt32) : Nat :=
  if load = imageStart then 0 else roundUp8 imageLen.toNat

/-- **An image is loaded** with the bytes that round its length up.  `*load_end` is past them, and
the limit holds for both lengths rounded up. -/
structure CopiesRounded (lib : BootLib ρ) (ram : Memory)
    (load imageStart imageLen uncLen : UInt32) : Prop where
  failed : (imageDecomp lib ram ihCompNone load imageStart imageLen uncLen).1 ≠ 0 →
    (imageDecomp lib ram ihCompNone load imageStart imageLen uncLen).2.2 = ram
  image : (imageDecomp lib ram ihCompNone load imageStart imageLen uncLen).1 = 0 →
    readBytes (imageDecomp lib ram ihCompNone load imageStart imageLen uncLen).2.2 load
      imageLen.toNat = readBytes ram imageStart imageLen.toNat
  loadEnd : (imageDecomp lib ram ihCompNone load imageStart imageLen uncLen).1 = 0 →
    (imageDecomp lib ram ihCompNone load imageStart imageLen uncLen).2.1 = load +
      UInt32.ofNat (if load = imageStart then imageLen.toNat else roundUp8 imageLen.toNat)
  frame : SameOff load (writtenLen load imageStart imageLen) ram
    (imageDecomp lib ram ihCompNone load imageStart imageLen uncLen).2.2
  limit : (imageDecomp lib ram ihCompNone load imageStart imageLen uncLen).1 = 0 →
    writtenLen load imageStart imageLen ≤ roundUp8 uncLen.toNat

theorem toNat_rounded (hlen : imageLen.toNat ≤ 2 ^ 32 - 8) :
    (if imageLen % 8 ≠ 0 then imageLen / 8 * 8 + 8 else imageLen).toNat =
      roundUp8 imageLen.toNat := by
  have height : (8 : UInt32).toNat = 8 := rfl
  have hmod : imageLen % 8 ≠ 0 ↔ imageLen.toNat % 8 ≠ 0 := by
    rw [Ne, ← UInt32.toNat_inj, UInt32.toNat_mod, height]
    exact Iff.rfl
  by_cases hrem : imageLen.toNat % 8 = 0
  · rw [if_neg fun h => hmod.mp h hrem, roundUp8]
    omega
  · rw [if_pos (hmod.mpr hrem), roundUp8, UInt32.toNat_add, UInt32.toNat_mul, UInt32.toNat_div,
      height]
    omega

theorem imageDecomp_moved (hdma : DmaExact lib) (ram : Memory) (hne : load ≠ imageStart)
    (hlen : imageLen.toNat ≤ 2 ^ 32 - 8) (hle : imageLen ≤ uncLen) :
    imageDecomp lib ram ihCompNone load imageStart imageLen uncLen =
      (0, load + UInt32.ofNat (roundUp8 imageLen.toNat),
        copy ram load imageStart (roundUp8 imageLen.toNat)) := by
  have hround := toNat_rounded hlen
  simp only [imageDecomp, if_pos, if_neg hne, if_pos hle]
  generalize (if imageLen % 8 ≠ 0 then imageLen / 8 * 8 + 8 else imageLen) = len at hround
  have hof : UInt32.ofNat (roundUp8 imageLen.toNat) = len := by
    rw [← hround]
    exact UInt32.ofNat_toNat
  split
  · rw [hof, hround]
  · rw [hof, hdma, hround]

/-- **The load of an uncompressed image**, for every memory, place and length; the limit is one
that can be rounded up, as `CONFIG_SYS_BOOTM_LEN` is. -/
theorem copiesRounded (hdma : DmaExact lib) (ram : Memory)
    (load imageStart imageLen : UInt32) (hunc : uncLen.toNat ≤ 2 ^ 32 - 8) :
    CopiesRounded lib ram load imageStart imageLen uncLen := by
  by_cases hplace : load = imageStart
  · have hcall : imageDecomp lib ram ihCompNone load imageStart imageLen uncLen =
        (0, load + imageLen, ram) := by
      simp only [imageDecomp, if_pos, hplace]
    refine ⟨fun _ => congrArg (·.2.2) hcall, fun _ => ?_, fun _ => ?_, ?_, fun _ => ?_⟩
    · rw [hcall, hplace]
    · rw [hcall, if_pos hplace, UInt32.ofNat_toNat]
    · rw [hcall]
      exact SameOff.refl _ _ _
    · rw [writtenLen, if_pos hplace]
      exact Nat.zero_le _
  · by_cases hle : imageLen ≤ uncLen
    · have hlen : imageLen.toNat ≤ uncLen.toNat := hle
      have hcall := imageDecomp_moved hdma ram hplace (hlen.trans hunc) hle
      have hrange : imageLen.toNat ≤ roundUp8 imageLen.toNat := by
        rw [roundUp8]
        omega
      refine ⟨fun herr => ?_, fun _ => ?_, fun _ => ?_, ?_, fun _ => ?_⟩
      · rw [hcall] at herr
        exact absurd rfl herr
      · rw [hcall]
        exact readBytes_copy ram load imageStart hrange imageLen.toNat_lt.le
      · rw [hcall, if_neg hplace]
      · rw [hcall, writtenLen, if_neg hplace]
        exact sameOff_copy ram load imageStart _
      · rw [writtenLen, if_neg hplace, roundUp8, roundUp8]
        omega
    · have hcall : imageDecomp lib ram ihCompNone load imageStart imageLen uncLen =
          (-enospc, load + imageLen, ram) := by
        simp only [imageDecomp, if_pos, if_neg hplace, if_neg hle]
      have herr : (imageDecomp lib ram ihCompNone load imageStart imageLen uncLen).1 ≠ 0 := by
        rw [hcall]
        exact (by decide : (-enospc : Int) ≠ 0)
      refine ⟨fun _ => congrArg (·.2.2) hcall, fun hok => absurd hok herr,
        fun hok => absurd hok herr, ?_, fun hok => absurd hok herr⟩
      rw [hcall]
      exact SameOff.refl _ _ _

/-- Thirteen bytes of flash, loaded to 0x80100000. -/
theorem copiesRounded_thirteen :
    CopiesRounded plainLib (fun x => UInt8.ofNat x.toNat) 0x80100000 0xc0040 13 0x2000000 :=
  copiesRounded (fun _ _ _ _ => rfl) _ 0x80100000 0xc0040 13 (by decide)

/-- They take the three bytes after them along, with a limit of thirteen. -/
theorem not_copiesExactly_thirteen :
    DmaExact plainLib ∧
      ¬ CopiesExactly plainLib (fun x => UInt8.ofNat x.toNat) 0x80100000 0xc0040 13 13 := by
  refine ⟨fun _ _ _ _ => rfl, fun h => ?_⟩
  have hend : (0x80100000 : UInt32) + 16 = 0x80100000 + 13 := h.loadEnd (by decide +kernel)
  exact absurd hend (by decide)

end RealtekIpcam.Uboot
