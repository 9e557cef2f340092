import RealtekIpcam.Uboot.Bootm

/-!
# What `bootm` hands over

The allocator keeps what it gives away apart from what was reserved before.  That is not enough to
keep three images apart and intact: a state may write over an image that a later state is still to
move, an image that is used in place may not be where the allocator can avoid it, and a reservation
may be left out or refused.

`LayoutClear` is what has to hold of the images as they are found; under it `handedOver` says that
the three regions are disjoint and hold what was found.  Each part of it is needed:
`not_handedOver`.
-/

namespace RealtekIpcam.Uboot

open Ram

variable {ρ : Type} {lib : BootLib ρ} {env : BootEnv}
  {images images' images₁ images₂ : BootmHeaders ρ}
  {reserved : ρ → UInt32 → UInt32 → Prop} {inflate : UInt8 → List UInt8 → List UInt8}
  {opened : Memory → UInt32 → UInt32 → List UInt8}

/-! ## What is claimed -/

/-- The length of the ramdisk that was found. -/
def BootmHeaders.rdLen (images : BootmHeaders ρ) : UInt32 := images.rdEnd - images.rdStart

/-- The kernel, out of the image that was found. -/
def kernelBytes (inflate : UInt8 → List UInt8 → List UInt8) (images : BootmHeaders ρ) :
    List UInt8 :=
  let image := readBytes images.ram images.os.imageStart images.os.imageLen.toNat
  if images.os.comp = ihCompNone then image else inflate images.os.comp image

/-- The device tree that was found, as it is handed over: opened for more, or with its new size. -/
def fdtBytes (opened : Memory → UInt32 → UInt32 → List UInt8) (env : BootEnv)
    (images : BootmHeaders ρ) : List UInt8 :=
  let ofLen := images.ftLen + env.sysFdtPad
  if fdtRelocated env then opened images.ram images.ftAddr ofLen
  else readBytes (fdtSetTotalsize images.ram images.ftAddr ofLen) images.ftAddr images.ftLen.toNat

/-- The three regions are disjoint and hold the images that were found. -/
@[mk_iff]
structure HandedOver (lib : BootLib ρ) (env : BootEnv)
    (inflate : UInt8 → List UInt8 → List UInt8) (opened : Memory → UInt32 → UInt32 → List UInt8)
    (images images' : BootmHeaders ρ) : Prop where
  kernel_ramdisk : Sep images.os.load (kernelLen lib env images).toNat
    images'.initrdStart (images'.initrdEnd - images'.initrdStart).toNat
  kernel_fdt : Sep images.os.load (kernelLen lib env images).toNat
    images'.ftAddr images'.ftLen.toNat
  ramdisk_fdt : Sep images'.initrdStart (images'.initrdEnd - images'.initrdStart).toNat
    images'.ftAddr images'.ftLen.toNat
  kernel : Holds images'.ram images.os.load (kernelBytes inflate images)
  ramdisk : images.rdStart ≠ 0 → Holds images'.ram images'.initrdStart
    (readBytes images.ram images.rdStart images.rdLen.toNat)
  fdt : images.ftLen ≠ 0 → Holds images'.ram images'.ftAddr (fdtBytes opened env images)

/-- The images as they are found: a length fits with its rounding or padding, and a device tree has
a header, which says how long it is. -/
@[mk_iff]
structure Found (env : BootEnv) (images : BootmHeaders ρ) : Prop where
  imageLen : images.os.imageLen.toNat + 8 < 2 ^ 32
  fdtHeader : images.ftLen ≠ 0 → 8 ≤ images.ftLen.toNat
  fdtSize : images.ftLen ≠ 0 → fdtTotalsize images.ram images.ftAddr = images.ftLen
  fdtPad : images.ftLen.toNat + env.sysFdtPad.toNat < 2 ^ 32

/-- The range of the device tree as it is found, with its padding if it is used in place. -/
def fdtSpan (env : BootEnv) (images : BootmHeaders ρ) : UInt32 :=
  if fdtRelocated env then images.ftLen else images.ftLen + env.sysFdtPad

/-- The kernel is used where it is. -/
def inPlaceKernel (os : ImageInfo) : Prop := os.comp = ihCompNone ∧ os.load = os.imageStart

/-- No image lies where an earlier state writes, and every reservation is made that a later
allocation has to respect. -/
structure LayoutClear (lib : BootLib ρ) (env : BootEnv) (reserved : ρ → UInt32 → UInt32 → Prop)
    (images : BootmHeaders ρ) : Prop where
  /-- The kernel is not loaded over its container. -/
  container : inPlaceKernel images.os ∨
    overlapsContainer images.os (images.os.load + kernelLen lib env images) = false ∧
      Sep images.os.load (kernelLen lib env images).toNat
        images.os.imageStart images.os.imageLen.toNat
  /-- Nor over the ramdisk or the device tree. -/
  kernel_ramdisk : images.rdStart ≠ 0 → Sep images.os.load (kernelLen lib env images).toNat
    images.rdStart images.rdLen.toNat
  kernel_fdt : images.ftLen ≠ 0 → Sep images.os.load (kernelLen lib env images).toNat
    images.ftAddr (fdtSpan env images).toNat
  /-- The allocator does not give away the range of the device tree before it is moved. -/
  fdt_reserved : images.rdStart ≠ 0 → initrdRelocated env = true → images.ftLen ≠ 0 →
    reserved images.lmb images.ftAddr (fdtSpan env images)
  /-- Two images that are used in place are disjoint. -/
  ramdisk_fdt : images.rdStart ≠ 0 → initrdRelocated env = false → images.ftLen ≠ 0 →
    fdtRelocated env = false →
      Sep images.rdStart images.rdLen.toNat images.ftAddr (fdtSpan env images).toNat
  /-- The reservation of the kernel succeeds, and that of a ramdisk that is used in place. -/
  kernel_reserved : 0 ≤ (lib.lmbReserve images.lmb images.os.load (kernelLen lib env images)).1
  ramdisk_reserved : images.rdStart ≠ 0 → initrdRelocated env = false →
    0 ≤ (lib.lmbReserve (lib.lmbReserve images.lmb images.os.load (kernelLen lib env images)).2
      images.rdStart images.rdLen).1

/-! ## Loading the kernel -/

theorem imageDecomp_off (hlib : lib.Conforms reserved inflate opened)
    {ram : Memory} {comp : UInt8} {load imageStart imageLen uncLen : UInt32}
    (hok : (imageDecomp lib ram comp load imageStart imageLen uncLen).1 = 0) :
    SameOff load ((imageDecomp lib ram comp load imageStart imageLen uncLen).2.1 - load).toNat ram
      (imageDecomp lib ram comp load imageStart imageLen uncLen).2.2 := by
  have hsub (n : UInt32) : load + n - load = n := by
    rw [UInt32.add_comm, UInt32.add_sub_cancel]
  unfold imageDecomp at hok ⊢
  split
  · split
    · exact SameOff.refl _ _ _
    split
    · dsimp only
      split
      · dsimp only
        rw [hsub]
        exact sameOff_copy _ _ _ _
      · dsimp only
        rw [hsub]
        exact hlib.dma_off _ _ _ _
    · exact SameOff.refl _ _ _
  · rename_i hcomp
    rw [if_neg hcomp] at hok
    dsimp only at hok ⊢
    rw [hsub]
    exact hlib.decompress_off _ _ _ _ _ _ hok

theorem toNat_roundup {n : UInt32} (hn : n.toNat + 8 < 2 ^ 32) :
    n.toNat ≤ (if n % 8 ≠ 0 then n / 8 * 8 + 8 else n).toNat := by
  split
  · have height : (8 : UInt32).toNat = 8 := rfl
    rw [UInt32.toNat_add, UInt32.toNat_mul, UInt32.toNat_div, height]
    omega
  · exact Nat.le_refl _

theorem loaded_holds (hlib : lib.Conforms reserved inflate opened)
    (hlen : images.os.imageLen.toNat + 8 < 2 ^ 32)
    (hok : (imageDecomp lib images.ram images.os.comp images.os.load images.os.imageStart
      images.os.imageLen env.sysBootmLen).1 = 0)
    (hclear : inPlaceKernel images.os ∨ Sep images.os.load (kernelLen lib env images).toNat
      images.os.imageStart images.os.imageLen.toNat) :
    Holds (imageDecomp lib images.ram images.os.comp images.os.load images.os.imageStart
        images.os.imageLen env.sysBootmLen).2.2 images.os.load (kernelBytes inflate images) ∧
      (kernelBytes inflate images).length ≤ (kernelLen lib env images).toNat := by
  have hsub (n : UInt32) : images.os.load + n - images.os.load = n := by
    rw [UInt32.add_comm, UInt32.add_sub_cancel]
  have hle := images.os.imageLen.toNat_lt.le
  unfold inPlaceKernel kernelLen at hclear
  unfold kernelLen kernelBytes
  unfold imageDecomp at hok hclear ⊢
  by_cases hcomp : images.os.comp = ihCompNone
  · simp only [if_pos hcomp] at hok hclear ⊢
    rw [holds_readBytes, length_readBytes]
    by_cases hxip : images.os.load = images.os.imageStart
    · rw [if_pos hxip]
      dsimp only
      rw [hsub, hxip]
      exact ⟨rfl, Nat.le_refl _⟩
    have hnot : ¬ (images.os.comp = ihCompNone ∧ images.os.load = images.os.imageStart) :=
      fun h => hxip h.2
    simp only [if_neg hxip] at hok hclear ⊢
    by_cases hfits : images.os.imageLen ≤ env.sysBootmLen
    · simp only [if_pos hfits] at hok hclear ⊢
      have hround := toNat_roundup hlen
      split at hclear
      · rename_i hhigh
        rw [if_pos hhigh]
        dsimp only
        rw [hsub]
        exact ⟨readBytes_copy _ _ _ hround hle, hround⟩
      · rename_i hhigh
        rw [if_neg hhigh]
        have hsep := hclear.resolve_left fun h => hxip h.2
        dsimp only at hsep ⊢
        rw [hsub] at hsep ⊢
        refine ⟨List.ext_getElem (length_readBytes.trans length_readBytes.symm)
          fun i hi _ => ?_, hround⟩
        rw [length_readBytes] at hi
        rw [getElem_readBytes, getElem_readBytes]
        refine hlib.dma_arrives _ _ _ _ i (Nat.lt_of_lt_of_le hi hround) ?_
        refine fun hin => hsep _ hin ?_
        rw [toNat_add_ofNat_sub (by omega)]
        exact hi
    · simp only [if_neg hfits] at hok
      exact absurd hok (by decide)
  · simp only [if_neg hcomp] at hok hclear ⊢
    rw [hsub] at hclear ⊢
    have hsep := hclear.resolve_left fun h => hcomp h.1
    have hread := hlib.decompress_holds _ _ _ _ _ _ hok hsep
    have hlength := congrArg List.length hread
    rw [length_readBytes] at hlength
    refine ⟨?_, hlength.symm.le⟩
    unfold Holds
    rw [← hlength]
    exact hread

/-- After the kernel. -/
structure AfterLoad (lib : BootLib ρ) (env : BootEnv) (inflate : UInt8 → List UInt8 → List UInt8)
    (images images₁ : BootmHeaders ρ) : Prop where
  off : SameOff images.os.load (kernelLen lib env images).toNat images.ram images₁.ram
  holds : Holds images₁.ram images.os.load (kernelBytes inflate images)
  length : (kernelBytes inflate images).length ≤ (kernelLen lib env images).toNat
  lmb : images₁.lmb =
    (lib.lmbReserve images.lmb images.os.load (kernelLen lib env images)).2
  ramdisk : images₁.rdStart = images.rdStart ∧ images₁.rdEnd = images.rdEnd
  fdt : images₁.ftAddr = images.ftAddr ∧ images₁.ftLen = images.ftLen

theorem afterLoad (hlib : lib.Conforms reserved inflate opened) (hfound : Found env images)
    (hclear : LayoutClear lib env reserved images) (hstep : LoadStep lib env images images₁) :
    AfterLoad lib env inflate images images₁ := by
  cases hstep with
  | loaded ram hok hram =>
    subst hram
    obtain ⟨hholds, hlength⟩ :=
      loaded_holds hlib hfound.imageLen hok (hclear.container.imp_right And.right)
    exact ⟨imageDecomp_off hlib hok, hholds, hlength, rfl, ⟨rfl, rfl⟩, rfl, rfl⟩
  | overlap ram hlegacy hover =>
    rcases hclear.container with hxip | ⟨hnot, -⟩
    · unfold overlapsContainer at hover
      exact absurd hxip (of_decide_eq_true hover).1
    · rw [hnot] at hover
      cases hover

/-- After the ramdisk. -/
structure AfterRamdisk (lib : BootLib ρ) (env : BootEnv)
    (reserved : ρ → UInt32 → UInt32 → Prop) (inflate : UInt8 → List UInt8 → List UInt8)
    (images images₂ : BootmHeaders ρ) : Prop where
  kernel_ramdisk : Sep images.os.load (kernelLen lib env images).toNat
    images₂.initrdStart (images₂.initrdEnd - images₂.initrdStart).toNat
  kernel : Holds images₂.ram images.os.load (kernelBytes inflate images)
  ramdisk : images.rdStart ≠ 0 → Holds images₂.ram images₂.initrdStart
    (readBytes images.ram images.rdStart images.rdLen.toNat) ∧
      images₂.initrdEnd - images₂.initrdStart = images.rdLen
  /-- The device tree is still where it was found. -/
  fdt : images₂.ftAddr = images.ftAddr ∧ images₂.ftLen = images.ftLen
  source : images.ftLen ≠ 0 → readBytes images₂.ram images.ftAddr (fdtSpan env images).toNat =
    readBytes images.ram images.ftAddr (fdtSpan env images).toNat
  /-- If it stays there, it is clear of the ramdisk; if not, the allocator knows both regions. -/
  inPlace : images.ftLen ≠ 0 → fdtRelocated env = false →
    Sep images₂.initrdStart (images₂.initrdEnd - images₂.initrdStart).toNat
      images.ftAddr (fdtSpan env images).toNat
  kernelReserved : reserved images₂.lmb images.os.load (kernelLen lib env images)
  ramdiskReserved : images.rdStart ≠ 0 →
    reserved images₂.lmb images₂.initrdStart (images₂.initrdEnd - images₂.initrdStart)
  none : images.rdStart = 0 → images₂.initrdEnd - images₂.initrdStart = 0

/-- Moving the ramdisk keeps what was loaded. -/
theorem afterRamdisk (hlib : lib.Conforms reserved inflate opened)
    (hclear : LayoutClear lib env reserved images)
    (hload : AfterLoad lib env inflate images images₁)
    (hstep : RamdiskStep lib env images₁ images.rdStart images.rdLen images₂) :
    AfterRamdisk lib env reserved inflate images images₂ := by
  have hsub (a n : UInt32) : a + n - a = n := by rw [UInt32.add_comm, UInt32.add_sub_cancel]
  have hkernel : reserved images₁.lmb images.os.load (kernelLen lib env images) := by
    rw [hload.lmb]
    exact hlib.reserve_takes _ _ _ hclear.kernel_reserved
  have hsource : images.ftLen ≠ 0 →
      readBytes images₁.ram images.ftAddr (fdtSpan env images).toNat =
        readBytes images.ram images.ftAddr (fdtSpan env images).toNat :=
    fun h => hload.off.readBytes (hclear.kernel_fdt h) (UInt32.toNat_lt _).le
  have hrd : images.rdStart ≠ 0 → readBytes images₁.ram images.rdStart images.rdLen.toNat =
      readBytes images.ram images.rdStart images.rdLen.toNat :=
    fun h => hload.off.readBytes (hclear.kernel_ramdisk h) (UInt32.toNat_lt _).le
  cases hstep with
  | none h =>
    have hnil : ((0 : UInt32) - 0).toNat = 0 := by rw [UInt32.sub_self]; rfl
    refine ⟨?_, hload.holds, fun hne => absurd h hne, hload.fdt, hsource,
      fun _ _ => ?_, hkernel, fun hne => absurd h hne, fun _ => UInt32.sub_self 0⟩
    · dsimp only
      rw [hnil]
      exact sep_zero_right _ _ _
    · dsimp only
      rw [hnil]
      exact sep_zero_left _ _ _
  | inPlace h henv =>
    refine ⟨?_, hload.holds, fun _ => ⟨holds_readBytes.mpr (hrd h), hsub _ _⟩, hload.fdt, hsource,
      fun hft hfdt => ?_, hlib.reserve_keeps _ _ _ _ _ hkernel, fun _ => ?_,
      fun h0 => absurd h0 h⟩
    · dsimp only
      rw [hsub]
      exact hclear.kernel_ramdisk h
    · dsimp only
      rw [hsub]
      exact hclear.ramdisk_fdt h henv hft hfdt
    · dsimp only
      rw [hsub, hload.lmb]
      exact hlib.reserve_takes _ _ _ (hclear.ramdisk_reserved h henv)
  | moved h henv place halloc hplace =>
    have hkeeps (b m : UInt32) (hb : reserved images₁.lmb b m) : reserved place.2 b m := by
      rcases halloc with ⟨max, rfl⟩ | rfl
      · exact hlib.allocBase_keeps _ _ _ _ _ _ hb
      · exact hlib.alloc_keeps _ _ _ _ _ hb
    have htakes : reserved place.2 place.1 images.rdLen := by
      rcases halloc with ⟨max, rfl⟩ | rfl
      · exact hlib.allocBase_takes _ _ _ _ hplace
      · exact hlib.alloc_takes _ _ _ hplace
    have hsep (b m : UInt32) (hb : reserved images₁.lmb b m) :
        Sep place.1 images.rdLen.toNat b m.toNat := by
      rcases halloc with ⟨max, rfl⟩ | rfl
      · exact hlib.allocBase_sep _ _ _ _ hplace _ _ hb
      · exact hlib.alloc_sep _ _ _ hplace _ _ hb
    have hfdt : images.ftLen ≠ 0 →
        Sep place.1 images.rdLen.toNat images.ftAddr (fdtSpan env images).toNat := by
      intro hft
      refine hsep _ _ ?_
      rw [hload.lmb]
      exact hlib.reserve_keeps _ _ _ _ _ (hclear.fdt_reserved h henv hft)
    have hoff : SameOff place.1 images.rdLen.toNat images₁.ram
      (copy images₁.ram place.1 images.rdStart images.rdLen.toNat) := sameOff_copy _ _ _ _
    have hlong := (images.rdLen).toNat_lt.le
    refine ⟨?_, ?_, fun _ => ⟨holds_readBytes.mpr ?_, hsub _ _⟩, hload.fdt, fun hft => ?_,
      fun hft _ => ?_, hkeeps _ _ hkernel, fun _ => ?_, fun h0 => absurd h0 h⟩
    · dsimp only
      rw [hsub]
      exact (hsep _ _ hkernel).symm
    · refine hload.holds.sameOff hoff ((hsep _ _ hkernel).mono (Nat.le_refl _) hload.length) ?_
      exact hload.length.trans (UInt32.toNat_lt _).le
    · exact (readBytes_copy _ _ _ (Nat.le_refl _) hlong).trans (hrd h)
    · exact (hoff.readBytes (hfdt hft) (UInt32.toNat_lt _).le).trans (hsource hft)
    · dsimp only
      rw [hsub]
      exact hfdt hft
    · dsimp only
      rw [hsub]
      exact htakes

/-! ## Moving the device tree -/

theorem addMemRsv_keeps (hlib : lib.Conforms reserved inflate opened) {b m : UInt32}
    (h : reserved images.lmb b m) : reserved (bootFdtAddMemRsvRegions lib images).lmb b m := by
  unfold bootFdtAddMemRsvRegions
  split
  · exact h
  · show reserved ((lib.fdtReserved images.ram images.ftAddr).foldl _ images.lmb) b m
    generalize lib.fdtReserved images.ram images.ftAddr = regions
    generalize images.lmb = lmb at h
    induction regions generalizing lmb with
    | nil => exact h
    | cons r regions ih => exact ih _ (hlib.reserve_keeps _ _ _ _ _ h)

theorem AfterRamdisk.addMemRsv (h : AfterRamdisk lib env reserved inflate images images₂)
    (hlib : lib.Conforms reserved inflate opened) :
    AfterRamdisk lib env reserved inflate images (bootFdtAddMemRsvRegions lib images₂) := by
  have hkernel := addMemRsv_keeps hlib h.kernelReserved
  have hramdisk := fun hne => addMemRsv_keeps hlib (h.ramdiskReserved hne)
  unfold bootFdtAddMemRsvRegions at hkernel hramdisk ⊢
  split
  · exact h
  · rename_i hcheck
    simp only [if_neg hcheck] at hkernel hramdisk
    exact ⟨h.kernel_ramdisk, h.kernel, h.ramdisk, h.fdt, h.source, h.inPlace, hkernel, hramdisk,
      h.none⟩

theorem fdtSetTotalsize_off {fdt n : UInt32} (hn : 8 ≤ n.toNat) (ram : Memory) (size : UInt32) :
    SameOff fdt n.toNat ram (fdtSetTotalsize ram fdt size) := by
  refine (sameOff_store ram (fdt + 4) (Words.beBytes size)).mono fun x hx => ?_
  have hfour : (4 : UInt32).toNat = 4 := rfl
  rw [Words.length_beBytes] at hx
  have hx' := x.toNat_lt
  have hfdt := fdt.toNat_lt
  rw [UInt32.toNat_sub, UInt32.toNat_add, hfour] at hx
  rw [UInt32.toNat_sub]
  omega

/-- Moving the device tree completes the handover. -/
theorem handedOver_fdtStep (hlib : lib.Conforms reserved inflate opened)
    (hfound : Found env images) (hclear : LayoutClear lib env reserved images)
    (hlength : (kernelBytes inflate images).length ≤ (kernelLen lib env images).toNat)
    (h : AfterRamdisk lib env reserved inflate images images₂)
    (hstep : FdtStep lib env images₂ images') :
    HandedOver lib env inflate opened images images' := by
  obtain ⟨haddr, hlen⟩ := h.fdt
  -- What is written into a region that is clear of the kernel and of the ramdisk spares both.
  have hspares (a n : UInt32) (ram : Memory) (hoff : SameOff a n.toNat images₂.ram ram)
      (hk : Sep images.os.load (kernelLen lib env images).toNat a n.toNat)
      (hr : Sep images₂.initrdStart (images₂.initrdEnd - images₂.initrdStart).toNat a n.toNat) :
      Holds ram images.os.load (kernelBytes inflate images) ∧
        (images.rdStart ≠ 0 → Holds ram images₂.initrdStart
          (readBytes images.ram images.rdStart images.rdLen.toNat)) := by
    refine ⟨h.kernel.sameOff hoff (hk.symm.mono (Nat.le_refl _) hlength) ?_, fun hne => ?_⟩
    · exact hlength.trans (UInt32.toNat_lt _).le
    · obtain ⟨hholds, hlen⟩ := h.ramdisk hne
      rw [hlen] at hr
      refine hholds.sameOff hoff ?_ ?_
      · rw [length_readBytes]
        exact hr.symm
      · rw [length_readBytes]
        exact (UInt32.toNat_lt _).le
  cases hstep with
  | none hzero =>
    have hzero' : images.ftLen = 0 := hlen ▸ hzero
    have hnil : images'.ftLen.toNat = 0 := by
      rw [hzero]
      rfl
    refine ⟨h.kernel_ramdisk, ?_, ?_, h.kernel, fun hne => (h.ramdisk hne).1,
      fun hne => absurd hzero' hne⟩
    · rw [hnil]
      exact sep_zero_right _ _ _
    · rw [hnil]
      exact sep_zero_right _ _ _
  | inPlace hne henv lmb =>
    have hft : images.ftLen ≠ 0 := hlen ▸ hne
    have hspan : fdtSpan env images = images.ftLen + env.sysFdtPad := by
      unfold fdtSpan
      rw [if_neg (by rw [henv]; exact nofun)]
    have hpad := hfound.fdtPad
    have hheader := hfound.fdtHeader hft
    have hadd : (images.ftLen + env.sysFdtPad).toNat =
        images.ftLen.toNat + env.sysFdtPad.toNat := by
      rw [UInt32.toNat_add, Nat.mod_eq_of_lt hpad]
    have hk := hclear.kernel_fdt hft
    have hr := h.inPlace hft henv
    have hsource := h.source hft
    rw [hspan] at hk hr hsource
    rw [haddr, hlen]
    have hoff : SameOff images.ftAddr (images.ftLen + env.sysFdtPad).toNat images₂.ram
        (fdtSetTotalsize images₂.ram images.ftAddr (images.ftLen + env.sysFdtPad)) :=
      fdtSetTotalsize_off (by omega) images₂.ram (images.ftLen + env.sysFdtPad)
    obtain ⟨hkernel, hramdisk⟩ := hspares _ _ _ hoff hk hr
    refine ⟨h.kernel_ramdisk, hk, hr, hkernel, hramdisk, fun _ => ?_⟩
    unfold fdtBytes
    dsimp only
    rw [if_neg (by rw [henv]; exact nofun), holds_readBytes]
    refine readBytes_store_congr (readBytes_eq_iff.mpr fun i hi => ?_) _ _
    exact readBytes_eq_iff.mp hsource i (by omega)
  | moved hne henv place halloc hplace hopen =>
    have hft : images.ftLen ≠ 0 := hlen ▸ hne
    rw [haddr] at hopen ⊢
    rw [hlen] at halloc hopen ⊢
    have hspan : fdtSpan env images = images.ftLen := by
      unfold fdtSpan
      rw [if_pos henv]
    have hsep (b m : UInt32) (hb : reserved images₂.lmb b m) :
        Sep b m.toNat place.1 (images.ftLen + env.sysFdtPad).toNat := by
      rcases halloc with ⟨max, rfl⟩ | rfl
      · exact (hlib.allocBase_sep _ _ _ _ hplace _ _ hb).symm
      · exact (hlib.alloc_sep _ _ _ hplace _ _ hb).symm
    have hk := hsep _ _ h.kernelReserved
    have hr : Sep images₂.initrdStart (images₂.initrdEnd - images₂.initrdStart).toNat place.1
        (images.ftLen + env.sysFdtPad).toNat := by
      by_cases hrd : images.rdStart = 0
      · rw [h.none hrd]
        exact sep_zero_left _ _ _
      · exact hsep _ _ (h.ramdiskReserved hrd)
    obtain ⟨hkernel, hramdisk⟩ := hspares _ _ _ (hlib.open_off _ _ _ _ hopen) hk hr
    refine ⟨h.kernel_ramdisk, hk, hr, hkernel, hramdisk, fun _ => ?_⟩
    have hsize := hfound.fdtSize hft
    have hsource := h.source hft
    rw [hspan, ← hsize] at hsource
    have hsame := hlib.opened_congr images.ram images₂.ram images.ftAddr
      (images.ftLen + env.sysFdtPad) (by rw [hsize]; exact hfound.fdtHeader hft) hsource
    unfold fdtBytes
    dsimp only
    rw [if_pos henv, ← hsame]
    exact hlib.open_holds _ _ _ _ hopen

/-- **Hand-over.** -/
theorem handedOver (hlib : lib.Conforms reserved inflate opened) (hfound : Found env images)
    (hclear : LayoutClear lib env reserved images) {states : UInt32}
    (hstates : states &&& bootmStateLoados ≠ 0 ∧ states &&& bootmStateRamdisk ≠ 0 ∧
      states &&& bootmStateFdt ≠ 0)
    (hpass : doBootmStates lib env states images = some images') :
    HandedOver lib env inflate opened images images' := by
  obtain ⟨hload, hramdisk, hfdt⟩ := hstates
  unfold doBootmStates at hpass
  dsimp only at hpass
  rw [if_neg hload] at hpass
  obtain ⟨images₁, hone, hpass⟩ := Option.bind_eq_some_iff.mp hpass
  rw [if_neg hramdisk] at hpass
  obtain ⟨images₂, htwo, hpass⟩ := Option.bind_eq_some_iff.mp hpass
  rw [if_neg hfdt] at hpass
  have hafter := afterLoad hlib hfound hclear (loadStep_of_some hone)
  have hrd := ramdiskStep_of_some htwo
  rw [hafter.ramdisk.1, hafter.ramdisk.2] at hrd
  exact handedOver_fdtStep hlib hfound hclear hafter.length
    ((afterRamdisk hlib hclear hafter hrd).addMemRsv hlib) (fdtStep_of_some hpass)

/-! ## A boot that goes well, and those that do not -/

abbrev Taken := List (UInt32 × UInt32)

/-- The range meets none of them. -/
def Taken.Clear (taken : Taken) (a n : UInt32) : Prop :=
  ∀ r ∈ taken, Sep a n.toNat r.1 r.2.toNat

instance (taken : Taken) (a n : UInt32) : Decidable (taken.Clear a n) :=
  List.decidableBAll _ taken

/-- The first of a few places that is free. -/
def Taken.alloc (taken : Taken) (n : UInt32) : UInt32 × Taken :=
  match [0x1000, 0x3000, 0x4000, 0x5000, 0x6000].find?
    fun a : UInt32 => a ≠ 0 ∧ taken.Clear a n with
  | some a => (a, (a, n) :: taken)
  | none => (0, taken)

/-- A board with that allocator, without decompressors. -/
def plainLib : BootLib Taken where
  lmbReserve := fun taken a n => if taken.Clear a n then (0, (a, n) :: taken) else (-1, taken)
  lmbAlloc := fun taken n _ => taken.alloc n
  lmbAllocBase := fun taken n _ _ => taken.alloc n
  decompress := fun ram _ _ _ _ _ => (-enosys, 0, ram)
  dmaCopy := fun ram src dst len => copy ram dst src len.toNat
  fdtCheckHeader := fun _ _ => 0
  fdtOpenInto := fun ram fdt buf len =>
    let size := fdtTotalsize ram fdt
    if len < size ∨ size < 8 then (-3, ram)
    else (0, fdtSetTotalsize (copy ram buf fdt size.toNat) buf len)
  fdtReserved := fun _ _ => []

/-- What `fdt_open_into` makes of a tree: the same with a new size. -/
def plainOpened (ram : Memory) (fdt len : UInt32) : List UInt8 :=
  readBytes ram fdt 4 ++ (Words.beBytes len ++
    readBytes ram (fdt + 8) ((fdtTotalsize ram fdt).toNat - 8))

def Taken.Has (taken : Taken) (a n : UInt32) : Prop := (a, n) ∈ taken

theorem Taken.alloc_spec (taken : Taken) (n : UInt32) :
    (∀ r ∈ taken, r ∈ (taken.alloc n).2) ∧ ((taken.alloc n).1 ≠ 0 →
      ((taken.alloc n).1, n) ∈ (taken.alloc n).2 ∧ taken.Clear (taken.alloc n).1 n) := by
  unfold Taken.alloc
  split
  · rename_i a hfind
    have hclear := List.find?_some hfind
    exact ⟨fun r hr => List.mem_cons_of_mem _ hr,
      fun _ => ⟨List.mem_cons_self, (decide_eq_true_iff.mp hclear).2⟩⟩
  · exact ⟨fun r hr => hr, fun hne => absurd rfl hne⟩

theorem plainLib_open (ram : Memory) (fdt buf len : UInt32)
    (hret : (plainLib.fdtOpenInto ram fdt buf len).1 = 0) :
    8 ≤ (fdtTotalsize ram fdt).toNat ∧ (fdtTotalsize ram fdt).toNat ≤ len.toNat ∧
      (plainLib.fdtOpenInto ram fdt buf len).2 =
        fdtSetTotalsize (copy ram buf fdt (fdtTotalsize ram fdt).toNat) buf len := by
  unfold plainLib at hret ⊢
  dsimp only at hret ⊢
  split
  · rename_i hbad
    rw [if_pos hbad] at hret
    exact absurd hret (by decide : ¬ (-3 : Int) = 0)
  · rename_i hok
    rw [not_or, UInt32.not_lt, UInt32.not_lt] at hok
    exact ⟨UInt32.le_iff_toNat_le.mp hok.2, UInt32.le_iff_toNat_le.mp hok.1, rfl⟩

theorem plainOpened_congr {ram ram' : Memory} {fdt len : UInt32}
    (hsize : 8 ≤ (fdtTotalsize ram fdt).toNat)
    (hread : readBytes ram' fdt (fdtTotalsize ram fdt).toNat =
      readBytes ram fdt (fdtTotalsize ram fdt).toNat) :
    plainOpened ram' fdt len = plainOpened ram fdt len := by
  have hbytes := readBytes_eq_iff.mp hread
  have hword : fdtTotalsize ram' fdt = fdtTotalsize ram fdt := by
    have hbyte (k : UInt32) (hk : k.toNat < 8) : ram' (fdt + k) = ram (fdt + k) := by
      have := hbytes k.toNat (by omega)
      rwa [UInt32.ofNat_toNat] at this
    unfold fdtTotalsize word
    rw [UInt32.add_assoc, UInt32.add_assoc, UInt32.add_assoc, hbyte 4 (by decide),
      hbyte (4 + 1) (by decide), hbyte (4 + 2) (by decide), hbyte (4 + 3) (by decide)]
  unfold plainOpened
  have hsplit : (fdtTotalsize ram fdt).toNat = 8 + ((fdtTotalsize ram fdt).toNat - 8) := by omega
  rw [hsplit, readBytes_add, readBytes_add] at hread
  have htail := (List.append_inj hread (length_readBytes.trans length_readBytes.symm)).2
  have hhead : readBytes ram' fdt 4 = readBytes ram fdt 4 :=
    readBytes_eq_iff.mpr fun i hi => hbytes i (by omega)
  have height : UInt32.ofNat 8 = 8 := rfl
  rw [height] at htail
  rw [hword, hhead, htail]

theorem plainLib_conforms : plainLib.Conforms Taken.Has (fun _ bs => bs) plainOpened where
  reserve_keeps := by
    intro taken a n b m h
    show (b, m) ∈ (if taken.Clear a n then ((0 : Int), (a, n) :: taken) else (-1, taken)).2
    split
    · exact List.mem_cons_of_mem _ h
    · exact h
  reserve_takes := by
    intro taken a n h
    have h' : 0 ≤ (if taken.Clear a n then ((0 : Int), (a, n) :: taken) else (-1, taken)).1 := h
    show (a, n) ∈ (if taken.Clear a n then ((0 : Int), (a, n) :: taken) else (-1, taken)).2
    split at h'
    · rename_i hclear
      rw [if_pos hclear]
      exact List.mem_cons_self
    · exact absurd h' (by decide : ¬ (0 : Int) ≤ -1)
  alloc_keeps := fun taken n _ b m h => (taken.alloc_spec n).1 (b, m) h
  alloc_takes := fun taken n _ h => ((taken.alloc_spec n).2 h).1
  alloc_sep := fun taken n _ h b m hb => ((taken.alloc_spec n).2 h).2 (b, m) hb
  allocBase_keeps := fun taken n _ _ b m h => (taken.alloc_spec n).1 (b, m) h
  allocBase_takes := fun taken n _ _ h => ((taken.alloc_spec n).2 h).1
  allocBase_sep := fun taken n _ _ h b m hb => ((taken.alloc_spec n).2 h).2 (b, m) hb
  decompress_off := fun _ _ _ _ _ _ h => absurd h (by decide : ¬ (-enosys : Int) = 0)
  decompress_holds := fun _ _ _ _ _ _ h => absurd h (by decide : ¬ (-enosys : Int) = 0)
  dma_off := fun ram src dst len => sameOff_copy ram dst src len.toNat
  dma_arrives := by
    intro ram src dst len i hi _
    show copy ram dst src len.toNat (dst + UInt32.ofNat i) = _
    have hlen := len.toNat_lt
    unfold copy
    rw [toNat_add_ofNat_sub (by omega), if_pos hi, UInt32.add_comm dst, UInt32.add_sub_cancel]
  open_off := by
    intro ram fdt buf len hret
    obtain ⟨hsize, hfits, hram⟩ := plainLib_open ram fdt buf len hret
    rw [hram]
    refine SameOff.trans ?_ (fdtSetTotalsize_off (by omega) _ len)
    exact (sameOff_copy ram buf fdt _).mono fun x hx => by omega
  open_holds := by
    intro ram fdt buf len hret
    obtain ⟨hsize, hfits, hram⟩ := plainLib_open ram fdt buf len hret
    rw [hram]
    have hlt := (fdtTotalsize ram fdt).toNat_lt
    unfold plainOpened fdtSetTotalsize
    generalize (fdtTotalsize ram fdt).toNat = n at hsize hfits hlt ⊢
    have hbuf := buf.toNat_lt
    have hfour : (4 : UInt32).toNat = 4 := rfl
    have height : (8 : UInt32).toNat = 8 := rfl
    have hstore := sameOff_store (copy ram buf fdt n) (buf + 4) (Words.beBytes len)
    rw [Words.length_beBytes] at hstore
    have hhead : Holds (copy ram buf fdt n) buf (readBytes ram fdt 4) :=
      holds_readBytes.mpr (readBytes_copy ram buf fdt (by omega) (by decide))
    have htail : Holds (copy ram buf fdt n) (buf + 8) (readBytes ram (fdt + 8) (n - 8)) :=
      holds_readBytes.mpr (readBytes_copy_add ram buf fdt (k := 8) (by omega) (by omega))
    refine holds_append.mpr ⟨hhead.sameOff hstore ?_ ?_, holds_append.mpr ⟨?_, ?_⟩⟩
    · rw [length_readBytes, sep_iff (by decide) (by decide), UInt32.toNat_sub, UInt32.toNat_sub,
        UInt32.toNat_add, hfour]
      omega
    · rw [length_readBytes]
      decide
    · rw [length_readBytes]
      exact holds_store _ _ (by rw [Words.length_beBytes]; decide)
    · rw [length_readBytes, Words.length_beBytes, UInt32.add_assoc]
      refine htail.sameOff hstore ?_ ?_
      · rw [length_readBytes, sep_iff (by decide) (by omega), UInt32.toNat_sub, UInt32.toNat_sub,
          UInt32.toNat_add, UInt32.toNat_add, hfour, height]
        omega
      · rw [length_readBytes]
        omega
  opened_congr := fun ram ram' fdt len hsize hread => plainOpened_congr hsize hread

instance (images : BootmHeaders ρ) (images' : BootmHeaders ρ) : Decidable
    (HandedOver lib env inflate opened images images') :=
  decidable_of_iff _ (handedOver_iff lib env inflate opened images images').symm

instance (images : BootmHeaders ρ) : Decidable (Found env images) :=
  decidable_of_iff _ (found_iff env images).symm

/-- A kernel of sixteen bytes in a container at 0x1000, and a ramdisk of eight bytes; every byte of
the memory tells where it was. -/
def smallImages (taken : Taken) (load ftAddr : UInt32) : BootmHeaders Taken where
  ram := store (fun x => UInt8.ofNat (x.toNat + x.toNat / 256)) (ftAddr + 4) (Words.beBytes 16)
  lmb := taken
  os := ⟨0x1000, 0x1050, 0x1040, 16, load, ihCompNone⟩
  legacyHdrValid := true
  rdStart := 0x2000
  rdEnd := 0x2008
  ftAddr := ftAddr
  ftLen := 16
  initrdStart := 0
  initrdEnd := 0

/-- The environment: whether the ramdisk and the device tree are to stay where they are. -/
def smallEnv (initrdHere fdtHere : Bool) : BootEnv where
  initrdHigh := if initrdHere then some 0xffffffff else none
  fdtHigh := if fdtHere then some 0xffffffff else none
  bootmMapsize := 0x8000
  bootmLow := 0
  sysBootmLen := 0x2000000
  sysFdtPad := 16

def allStates : UInt32 := bootmStateLoados ||| bootmStateRamdisk ||| bootmStateFdt

/-- The kernel is loaded below the other images, which are moved. -/
theorem handedOver_small : ∃ images',
    doBootmStates plainLib (smallEnv false false) allStates
        (smallImages [(0x3000, 16)] 0x4000 0x3000) = some images' ∧
      HandedOver plainLib (smallEnv false false) (fun _ bs => bs) plainOpened
        (smallImages [(0x3000, 16)] 0x4000 0x3000) images' := by
  obtain ⟨images', himages⟩ := Option.isSome_iff_exists.mp (by decide +kernel :
    (doBootmStates plainLib (smallEnv false false) allStates
      (smallImages [(0x3000, 16)] 0x4000 0x3000)).isSome = true)
  refine ⟨images', himages, handedOver plainLib_conforms (by decide +kernel) ?_
    (by decide +kernel) himages⟩
  exact ⟨.inr (by decide +kernel), fun _ => by decide +kernel, fun _ => by decide +kernel,
    fun _ _ _ => List.mem_singleton.mpr (by decide +kernel),
    fun _ h => absurd h (by decide +kernel), by decide +kernel,
    fun _ h => absurd h (by decide +kernel)⟩

/-- What goes wrong, each with what is taken, where the kernel goes and where the device tree is. -/
def hazards : List (BootEnv × BootmHeaders Taken) :=
  [(smallEnv false false, smallImages [] 0x1000 0x3000),
    (smallEnv true false, smallImages [] 0x2000 0x3000),
    (smallEnv true true, smallImages [] 0x3000 0x3000),
    (smallEnv false true, smallImages [(0x1000, 0x50)] 0x4000 0x3000),
    (smallEnv true true, smallImages [] 0x4000 0x1ff0),
    (smallEnv false true, smallImages [(0x1000, 0x50), (0x3000, 0x20), (0x4008, 8)] 0x4000 0x3000)]

/-- **The hazards.**  The states pass, and the images are not what they were or not apart: the
kernel overwrites its container, so that its region is not reserved and the ramdisk is moved into
it; it overwrites the ramdisk, or the device tree; the ramdisk is moved onto the device tree; the
padding of the device tree reaches into the ramdisk; the reservation of the kernel is refused. -/
theorem not_handedOver : plainLib.Conforms Taken.Has (fun _ bs => bs) plainOpened ∧
    ∀ hazard ∈ hazards, Found hazard.1 hazard.2 ∧
      ∃ images', doBootmStates plainLib hazard.1 allStates hazard.2 = some images' ∧
        ¬ HandedOver plainLib hazard.1 (fun _ bs => bs) plainOpened hazard.2 images' := by
  refine ⟨plainLib_conforms, fun hazard hmem => ⟨?_, ?_⟩⟩
  · have hall : ∀ hazard ∈ hazards, Found hazard.1 hazard.2 := by decide +kernel
    exact hall hazard hmem
  · have hall : ∀ hazard ∈ hazards, (doBootmStates plainLib hazard.1 allStates hazard.2).map
        (fun images' => decide (HandedOver plainLib hazard.1 (fun _ bs => bs) plainOpened
          hazard.2 images')) = some false := by
      decide +kernel
    obtain ⟨images', himages, hbad⟩ := Option.map_eq_some_iff.mp (hall hazard hmem)
    exact ⟨images', himages, of_decide_eq_false hbad⟩

end RealtekIpcam.Uboot
