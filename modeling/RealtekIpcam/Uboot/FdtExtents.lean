import RealtekIpcam.Uboot.Bootm
import RealtekIpcam.Uboot.LegacyImage

/-!
# Where the device tree is that `boot_get_fdt` finds

A device tree says in its own header how long it is.  A legacy image that contains one, and the
table of a multi image, have a length of their own, which is what the checksum covers.
`boot_get_fdt` compares the two in a multi image.  In a legacy image it does not, and for an image
that is to be loaded to where its header is, it takes the header for the tree.

`fdt_check_header` is not among the sources and is a parameter.
-/

namespace RealtekIpcam.Uboot

open Ram Words

/-! ## The model -/

def imageCheckMagic (ram : Memory) (hdr : UInt32) : Bool := htonl (word ram hdr) = 0x27051956

/-- What `genimg_get_format` can return without support for Android images. -/
inductive ImageFormat where
  | invalid
  | legacy
  | fit
  deriving DecidableEq

section Model

variable (fdtCheckHeader : Memory → UInt32 → Int) (ram : Memory)

def genimgGetFormat (imgAddr : UInt32) : ImageFormat :=
  if imageCheckMagic ram imgAddr then .legacy
  else if fdtCheckHeader ram imgAddr = 0 then .fit
  else .invalid

/-- `image_get_fdt`: whether the image is accepted. -/
def imageGetFdt (fdtHdr : UInt32) : Bool :=
  imageCheckHcrc ram fdtHdr && imageCheckDcrc ram fdtHdr &&
    imageCheckType ram fdtHdr ihTypeFlatdt && imageGetComp ram fdtHdr = ihCompNone &&
    fdtCheckHeader ram (imageGetData fdtHdr) = 0

/-- What `boot_get_fdt` returns: 1, or 0 without a tree, or 0 with the tree's address and length and
the memory it left. -/
inductive FdtResult where
  | error
  | noFdt
  | found (ram : Memory) (ofFlatTree ofSize : UInt32)

/-- The end of `boot_get_fdt`. -/
def foundFdt (ram : Memory) (fdtBlob : UInt32) : FdtResult :=
  .found ram fdtBlob (fdtTotalsize ram fdtBlob)

/-- `boot_get_fdt` for a legacy image. -/
def legacyFdt (fdtAddr : UInt32) : FdtResult :=
  if !imageGetFdt fdtCheckHeader ram fdtAddr then .noFdt
  else
    let imageStart := fdtAddr
    let imageData := imageGetData fdtAddr
    let imageEnd := imageGetImageEnd ram fdtAddr
    let load := imageGetLoad ram fdtAddr
    let loadEnd := load + imageGetDataSize ram fdtAddr
    if load = imageStart ∨ load = imageData then foundFdt ram load
    else if load < imageEnd ∧ loadEnd > imageStart then .error
    else foundFdt (copy ram load imageData (imageGetDataSize ram fdtAddr).toNat) load

/-- `boot_get_fdt` for a multi image; it does not return if the table has no end. -/
def multiFdt (legacyHdrOs : UInt32) : Option FdtResult :=
  (imageMultiGetimg ram legacyHdrOs 2).map fun (fdtData, fdtLen) =>
    if fdtLen ≠ 0 then
      if fdtCheckHeader ram fdtData ≠ 0 then .error
      else if fdtTotalsize ram fdtData ≠ fdtLen then .error
      else foundFdt ram fdtData
    else .noFdt

/-- The third argument of the command, if there is one: "-", or an address. -/
inductive FdtSelect where
  | skip
  | addr (fdtAddr : UInt32)

/-- Of `images`: the kernel's legacy header, if it is valid, with the type in its copy. -/
structure LegacyOs where
  legacyHdrOs : UInt32
  type : UInt8

/-- `boot_get_fdt`, without support for FIT and Android images. -/
def bootGetFdt (select : Option FdtSelect) (os : Option LegacyOs) : Option FdtResult :=
  match select with
  | some .skip => some .noFdt
  | some (.addr fdtAddr) =>
    match genimgGetFormat fdtCheckHeader ram fdtAddr with
    | .legacy => some (legacyFdt fdtCheckHeader ram fdtAddr)
    | .fit => some (foundFdt ram fdtAddr)
    | .invalid => some .noFdt
  | none =>
    match os with
    | some os =>
      if os.type = ihTypeMulti then multiFdt fdtCheckHeader ram os.legacyHdrOs else some .noFdt
    | none => some .noFdt

/-! ## What is asked of it -/

/-- The data that an image header describes: where they are when the tree is found, and their
length.  Those of a legacy image may have been moved to the load address. -/
def fdtRegion (select : Option FdtSelect) (os : Option LegacyOs) : Option (UInt32 × UInt32) :=
  match select with
  | some .skip => none
  | some (.addr fdtAddr) =>
    if genimgGetFormat fdtCheckHeader ram fdtAddr = .legacy then
      let load := imageGetLoad ram fdtAddr
      some (if load = fdtAddr then imageGetData fdtAddr else load, imageGetDataSize ram fdtAddr)
    else none
  | none => os.map fun os => (imageGetData os.legacyHdrOs, imageGetDataSize ram os.legacyHdrOs)

/-- **The tree is covered**: it lies in the data that the header describes.  Positions are relative
to the data. -/
def FdtCovered (select : Option FdtSelect) (os : Option LegacyOs) : Prop :=
  ∀ region ∈ fdtRegion fdtCheckHeader ram select os, ∀ ram' tree len,
    bootGetFdt fdtCheckHeader ram select os = some (.found ram' tree len) →
      (tree - region.1).toNat + len.toNat ≤ region.2.toNat

/-- The length in the tree's header once the data are at the load address.  Of data of less than
eight bytes a part of it is what was there before. -/
def loadedTotalsize (fdtAddr : UInt32) : UInt32 :=
  let load := imageGetLoad ram fdtAddr
  if load = imageGetData fdtAddr then fdtTotalsize ram load
  else
    fdtTotalsize (copy ram load (imageGetData fdtAddr) (imageGetDataSize ram fdtAddr).toNat) load

/-- The sizes agree, for a legacy image: the tree's own is not larger than the data's, and the load
address is not the header's.  (If it is, the header's checksum is taken for the size, and the data
would have to go round the memory to the header.) -/
def LegacyAgrees (fdtAddr : UInt32) : Prop :=
  if imageGetLoad ram fdtAddr = fdtAddr then
    2 ^ 32 - 64 + (imageGetHcrc ram fdtAddr).toNat ≤ (imageGetDataSize ram fdtAddr).toNat
  else loadedTotalsize ram fdtAddr ≤ imageGetDataSize ram fdtAddr

/-- A legacy image is not moved over itself. -/
def LegacyClear (fdtAddr : UInt32) : Prop :=
  imageGetLoad ram fdtAddr = fdtAddr ∨ imageGetLoad ram fdtAddr = imageGetData fdtAddr ∨
    ¬ (imageGetLoad ram fdtAddr < imageGetImageEnd ram fdtAddr ∧
      imageGetLoad ram fdtAddr + imageGetDataSize ram fdtAddr > fdtAddr)

/-- The same for a multi image: if the tree is as long as its component, the component lies in the
data. -/
def MultiAgrees (hdr : UInt32) : Prop :=
  ∀ img ∈ imageMultiGetimg ram hdr 2, img.2 ≠ 0 → fdtCheckHeader ram img.1 = 0 →
    fdtTotalsize ram img.1 = img.2 →
      (img.1 - imageGetData hdr).toNat + img.2.toNat ≤ (imageGetDataSize ram hdr).toNat

/-- What the images have to be like, path by path. -/
def ExtentsAgree (select : Option FdtSelect) (os : Option LegacyOs) : Prop :=
  match select with
  | some .skip => True
  | some (.addr fdtAddr) =>
    imageCheckMagic ram fdtAddr = true → imageGetFdt fdtCheckHeader ram fdtAddr = true →
      LegacyClear ram fdtAddr → LegacyAgrees ram fdtAddr
  | none => ∀ os' ∈ os, os'.type = ihTypeMulti → MultiAgrees fdtCheckHeader ram os'.legacyHdrOs

end Model

variable {fdtCheckHeader : Memory → UInt32 → Int} {ram ram' : Memory} {fdtAddr tree len : UInt32}

theorem foundFdt_eq_found {ram₁ : Memory} {a : UInt32}
    (h : foundFdt ram₁ a = .found ram' tree len) : tree = a ∧ len = fdtTotalsize ram₁ a := by
  cases h
  exact ⟨rfl, rfl⟩

theorem fdtTotalsize_hdr (ram : Memory) (hdr : UInt32) :
    fdtTotalsize ram hdr = imageGetHcrc ram hdr := rfl

theorem hdr_sub_data (hdr : UInt32) : (hdr - imageGetData hdr).toNat = 2 ^ 32 - 64 := by
  have hlt := hdr.toNat_lt
  rw [imageGetData, imageGetHeaderSize, UInt32.toNat_sub, UInt32.toNat_add,
    show (64 : UInt32).toNat = 64 from rfl]
  omega

theorem legacyFdt_found (hget : imageGetFdt fdtCheckHeader ram fdtAddr = true)
    (hclear : LegacyClear ram fdtAddr) :
    ∃ ram', legacyFdt fdtCheckHeader ram fdtAddr =
      .found ram' (imageGetLoad ram fdtAddr)
        (if imageGetLoad ram fdtAddr = fdtAddr then imageGetHcrc ram fdtAddr
          else loadedTotalsize ram fdtAddr) := by
  have haccept : (!imageGetFdt fdtCheckHeader ram fdtAddr) = true ↔ False := by
    rw [hget]
    decide
  simp only [legacyFdt, if_neg haccept.mp]
  by_cases hstart : imageGetLoad ram fdtAddr = fdtAddr
  · rw [if_pos (Or.inl hstart), if_pos hstart]
    exact ⟨ram, by rw [foundFdt, hstart, fdtTotalsize_hdr]⟩
  rw [if_neg hstart]
  by_cases hdata : imageGetLoad ram fdtAddr = imageGetData fdtAddr
  · rw [if_pos (Or.inr hdata), loadedTotalsize, if_pos hdata]
    exact ⟨ram, rfl⟩
  · rw [if_neg (not_or.mpr ⟨hstart, hdata⟩),
      if_neg ((hclear.resolve_left hstart).resolve_left hdata), loadedTotalsize, if_neg hdata]
    exact ⟨_, rfl⟩

theorem legacyFdt_error (hget : imageGetFdt fdtCheckHeader ram fdtAddr = true)
    (hover : ¬ LegacyClear ram fdtAddr) : legacyFdt fdtCheckHeader ram fdtAddr = .error := by
  have haccept : (!imageGetFdt fdtCheckHeader ram fdtAddr) = true ↔ False := by
    rw [hget]
    decide
  obtain ⟨hstart, hrest⟩ := not_or.mp hover
  obtain ⟨hdata, hover⟩ := not_or.mp hrest
  simp only [legacyFdt, if_neg haccept.mp, if_neg (not_or.mpr ⟨hstart, hdata⟩),
    if_pos (not_not.mp hover)]

theorem legacy_covered_iff (hmagic : imageCheckMagic ram fdtAddr = true) (os : Option LegacyOs) :
    FdtCovered fdtCheckHeader ram (some (.addr fdtAddr)) os ↔
      ExtentsAgree fdtCheckHeader ram (some (.addr fdtAddr)) os := by
  have hformat : genimgGetFormat fdtCheckHeader ram fdtAddr = .legacy := if_pos hmagic
  have hcall : bootGetFdt fdtCheckHeader ram (some (.addr fdtAddr)) os =
      some (legacyFdt fdtCheckHeader ram fdtAddr) := by
    simp only [bootGetFdt, hformat]
  have hregion : ∀ region, region ∈ fdtRegion fdtCheckHeader ram (some (.addr fdtAddr)) os ↔
      region = (if imageGetLoad ram fdtAddr = fdtAddr then imageGetData fdtAddr
        else imageGetLoad ram fdtAddr, imageGetDataSize ram fdtAddr) := by
    intro region
    simp only [fdtRegion, if_pos hformat, Option.mem_def]
    exact ⟨fun h => (Option.some.inj h).symm, fun h => congrArg some h.symm⟩
  -- The tree that is found, and its place in the data, decide.
  have hplace : imageGetFdt fdtCheckHeader ram fdtAddr = true → LegacyClear ram fdtAddr →
      (FdtCovered fdtCheckHeader ram (some (.addr fdtAddr)) os ↔ LegacyAgrees ram fdtAddr) := by
    intro hget hclear
    obtain ⟨ram', hfound⟩ := legacyFdt_found hget hclear
    have hcovered : FdtCovered fdtCheckHeader ram (some (.addr fdtAddr)) os ↔
        ∀ region, region ∈ fdtRegion fdtCheckHeader ram (some (.addr fdtAddr)) os →
          (imageGetLoad ram fdtAddr - region.1).toNat +
            (if imageGetLoad ram fdtAddr = fdtAddr then imageGetHcrc ram fdtAddr
              else loadedTotalsize ram fdtAddr).toNat ≤ region.2.toNat := by
      constructor
      · intro h region hmem
        exact h region hmem ram' _ _ (by rw [hcall, hfound])
      · intro h region hmem ram₂ tree len hcall'
        rw [hcall, hfound] at hcall'
        cases hcall'
        exact h region hmem
    rw [hcovered]
    by_cases hstart : imageGetLoad ram fdtAddr = fdtAddr
    · simp only [hregion, LegacyAgrees, if_pos hstart, forall_eq]
      rw [hstart, hdr_sub_data]
    · simp only [hregion, LegacyAgrees, if_neg hstart, forall_eq, UInt32.sub_self]
      rw [show (0 : UInt32).toNat = 0 from rfl, Nat.zero_add]
      exact UInt32.le_iff_toNat_le.symm
  constructor
  · intro h _ hget hclear
    exact (hplace hget hclear).mp h
  · intro h region hmem ram' tree len hfound
    cases hget : imageGetFdt fdtCheckHeader ram fdtAddr with
    | false =>
      rw [hcall, legacyFdt, hget] at hfound
      cases hfound
    | true =>
      by_cases hclear : LegacyClear ram fdtAddr
      · exact (hplace hget hclear).mpr (h hmagic hget hclear) region hmem ram' tree len hfound
      · rw [hcall, legacyFdt_error hget hclear] at hfound
        cases hfound

theorem multi_covered_iff (fdtCheckHeader : Memory → UInt32 → Int) (ram : Memory) {os : LegacyOs}
    (htype : os.type = ihTypeMulti) : FdtCovered fdtCheckHeader ram none (some os) ↔
      MultiAgrees fdtCheckHeader ram os.legacyHdrOs := by
  have hcall : bootGetFdt fdtCheckHeader ram none (some os) =
      multiFdt fdtCheckHeader ram os.legacyHdrOs := if_pos htype
  constructor
  · intro h img himg hlen hcheck hsize
    refine h _ rfl ram img.1 img.2 ?_
    rw [hcall, multiFdt, Option.mem_def.mp himg, Option.map_some]
    dsimp only
    rw [if_pos hlen, if_neg (not_not.mpr hcheck), if_neg (not_not.mpr hsize), foundFdt, hsize]
  · intro h region hmem ram' tree len hfound
    obtain rfl : (imageGetData os.legacyHdrOs, imageGetDataSize ram os.legacyHdrOs) = region :=
      Option.some.inj hmem
    rw [hcall, multiFdt] at hfound
    obtain ⟨img, himg, hresult⟩ := Option.map_eq_some_iff.mp hfound
    dsimp only at hresult
    split at hresult
    next hlen =>
      split at hresult
      · cases hresult
      next hcheck =>
        split at hresult
        · cases hresult
        next hsize =>
          have hagrees := h img himg hlen (not_not.mp hcheck) (not_not.mp hsize)
          obtain ⟨rfl, rfl⟩ := foundFdt_eq_found hresult
          rw [not_not.mp hsize]
          exact hagrees
    next => cases hresult

/-- **The tree that `boot_get_fdt` finds in an image is covered** by what the header of the image
describes exactly if the sizes agree, for every memory and every `fdt_check_header`. -/
theorem fdtCovered_iff (fdtCheckHeader : Memory → UInt32 → Int) (ram : Memory)
    (select : Option FdtSelect) (os : Option LegacyOs) :
    FdtCovered fdtCheckHeader ram select os ↔ ExtentsAgree fdtCheckHeader ram select os := by
  match select, os with
  | some .skip, _ => exact iff_of_true nofun trivial
  | some (.addr fdtAddr), os =>
    cases hmagic : imageCheckMagic ram fdtAddr with
    | true => exact legacy_covered_iff hmagic os
    | false =>
      refine iff_of_true (fun region hmem => ?_) fun h => ?_
      · have hformat : genimgGetFormat fdtCheckHeader ram fdtAddr ≠ .legacy := by
          rw [genimgGetFormat, hmagic, if_neg Bool.false_ne_true]
          split <;> decide
        rw [fdtRegion, if_neg hformat] at hmem
        cases hmem
      · rw [hmagic] at h
        cases h
  | none, none => exact iff_of_true nofun nofun
  | none, some os =>
    by_cases htype : os.type = ihTypeMulti
    · rw [multi_covered_iff fdtCheckHeader ram htype]
      constructor
      · intro h os' hmem _
        cases hmem
        exact h
      · exact fun h => h os rfl htype
    · refine iff_of_true (fun region _ ram' tree len hfound => ?_) fun os' hmem hmulti => ?_
      · rw [bootGetFdt, if_neg htype] at hfound
        cases hfound
      · cases hmem
        exact absurd hmulti htype

/-- A tree is accepted by its magic number and its versions. -/
def plainCheckHeader (ram : Memory) (fdt : UInt32) : Int :=
  if htonl (word ram fdt) ≠ 0xd00dfeed then -9
  else if htonl (word ram (fdt + 20)) < 2 ∨ htonl (word ram (fdt + 24)) > 17 then -10
  else 0

/-- An image of the 40 bytes of a tree's header, which says that the tree has 256. -/
def cutTree : Memory :=
  ofBytes 0x1000
    ([0x27, 0x05, 0x19, 0x56, 0x78, 0x1c, 0x9d, 0x57, 0, 0, 0, 0, 0, 0, 0, 40, 0, 0, 0x10, 0x40,
      0, 0, 0, 0, 0xff, 0xd1, 0xe4, 0xb1, 5, 2, 8, 0] ++ List.replicate 32 0 ++
      [0xd0, 0x0d, 0xfe, 0xed, 0, 0, 1, 0, 0, 0, 0, 0x38, 0, 0, 0, 0x48, 0, 0, 0, 0x28, 0, 0, 0, 17,
        0, 0, 0, 16, 0, 0, 0, 0, 0, 0, 0, 0, 0, 0, 0, 0x10])

set_option maxRecDepth 20000 in
/-- The image is accepted, and the tree ends 216 bytes after it. -/
theorem cutTree_uncovered : imageGetFdt plainCheckHeader cutTree 0x1000 = true ∧
    ¬ FdtCovered plainCheckHeader cutTree (some (.addr 0x1000)) none := by
  have hget : imageGetFdt plainCheckHeader cutTree 0x1000 = true := by decide +kernel
  refine ⟨hget, fun h => ?_⟩
  have hcall : bootGetFdt plainCheckHeader cutTree (some (.addr 0x1000)) none =
      some (.found cutTree 0x1040 256) := by
    have hformat : genimgGetFormat plainCheckHeader cutTree 0x1000 = .legacy := by decide +kernel
    have hload : imageGetLoad cutTree 0x1000 = imageGetData 0x1000 := by decide +kernel
    have hsize : fdtTotalsize cutTree (imageGetData 0x1000) = 256 := by decide +kernel
    simp only [bootGetFdt, hformat, legacyFdt, hget, hload, or_true, if_true, foundFdt, hsize]
    rfl
  have hregion : (0x1040, 40) ∈
      fdtRegion plainCheckHeader cutTree (some (.addr 0x1000)) none := by
    decide +kernel
  exact absurd (h _ hregion _ _ _ hcall) (by decide)

end RealtekIpcam.Uboot
