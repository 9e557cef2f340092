import RealtekIpcam.Lib.Ram

/-!
# Loading the images of `bootm`

`do_bootm_states` moves up to three images to the places where the booted system expects them: the
kernel, the ramdisk and the device tree.  Each state writes to memory and tells the region
allocator what it took, and none of them looks at where the other images are.

What lies outside the sources is in `BootLib`: the region allocator, the decompressors, the DMA
engine, and the device tree library.  `BootLib.Conforms` says what is relied on: an allocated region
meets no region that was successfully reserved before, and each routine that writes stays in
its destination.

What each state can do is listed in `LoadStep`, `RamdiskStep` and `FdtStep`.
-/

namespace RealtekIpcam.Uboot

open Ram

/-! ## What is not among the sources -/

/-- The region allocator with its state `ρ`, the decompressors, the DMA engine, and what is used of
the device tree library. -/
structure BootLib (ρ : Type) where
  lmbReserve : ρ → UInt32 → UInt32 → Int × ρ
  lmbAlloc : ρ → UInt32 → UInt32 → UInt32 × ρ
  lmbAllocBase : ρ → UInt32 → UInt32 → UInt32 → UInt32 × ρ
  /-- From the kind of compression, the destination, the source, its length and the limit: an error
  code, the number of bytes that came out, and the memory. -/
  decompress : Memory → UInt8 → UInt32 → UInt32 → UInt32 → UInt32 → Int × UInt32 × Memory
  dmaCopy : Memory → UInt32 → UInt32 → UInt32 → Memory
  fdtCheckHeader : Memory → UInt32 → Int
  fdtOpenInto : Memory → UInt32 → UInt32 → UInt32 → Int × Memory
  /-- The memory reservations and the enabled regions under `/reserved-memory`. -/
  fdtReserved : Memory → UInt32 → List (UInt32 × UInt32)

def fdtTotalsize (ram : Memory) (fdt : UInt32) : UInt32 := Words.htonl (word ram (fdt + 4))

def fdtSetTotalsize (ram : Memory) (fdt size : UInt32) : Memory :=
  store ram (fdt + 4) (Words.beBytes size)

/-- What the documentation of these routines promises.  `reserved` says which ranges the allocator
knows to be taken; `inflate` and `opened` are what a decompressor and `fdt_open_into` produce. -/
structure BootLib.Conforms {ρ : Type} (lib : BootLib ρ)
    (reserved : ρ → UInt32 → UInt32 → Prop) (inflate : UInt8 → List UInt8 → List UInt8)
    (opened : Memory → UInt32 → UInt32 → List UInt8) : Prop where
  reserve_keeps : ∀ l a n b m, reserved l b m → reserved (lib.lmbReserve l a n).2 b m
  reserve_takes : ∀ l a n, 0 ≤ (lib.lmbReserve l a n).1 → reserved (lib.lmbReserve l a n).2 a n
  alloc_keeps : ∀ l n align b m, reserved l b m → reserved (lib.lmbAlloc l n align).2 b m
  alloc_takes : ∀ l n align, (lib.lmbAlloc l n align).1 ≠ 0 →
    reserved (lib.lmbAlloc l n align).2 (lib.lmbAlloc l n align).1 n
  alloc_sep : ∀ l n align, (lib.lmbAlloc l n align).1 ≠ 0 → ∀ b m, reserved l b m →
    Sep (lib.lmbAlloc l n align).1 n.toNat b m.toNat
  allocBase_keeps : ∀ l n align max b m, reserved l b m →
    reserved (lib.lmbAllocBase l n align max).2 b m
  allocBase_takes : ∀ l n align max, (lib.lmbAllocBase l n align max).1 ≠ 0 →
    reserved (lib.lmbAllocBase l n align max).2 (lib.lmbAllocBase l n align max).1 n
  allocBase_sep : ∀ l n align max, (lib.lmbAllocBase l n align max).1 ≠ 0 → ∀ b m, reserved l b m →
    Sep (lib.lmbAllocBase l n align max).1 n.toNat b m.toNat
  decompress_off : ∀ ram comp dst src len limit,
    (lib.decompress ram comp dst src len limit).1 = 0 →
    SameOff dst (lib.decompress ram comp dst src len limit).2.1.toNat ram
      (lib.decompress ram comp dst src len limit).2.2
  decompress_holds : ∀ ram comp dst src len limit,
    (lib.decompress ram comp dst src len limit).1 = 0 →
    Sep dst (lib.decompress ram comp dst src len limit).2.1.toNat src len.toNat →
    readBytes (lib.decompress ram comp dst src len limit).2.2 dst
        (lib.decompress ram comp dst src len limit).2.1.toNat =
      inflate comp (readBytes ram src len.toNat)
  dma_off : ∀ ram src dst len, SameOff dst len.toNat ram (lib.dmaCopy ram src dst len)
  dma_arrives : ∀ ram src dst len, ∀ i < len.toNat,
    ¬ (src + UInt32.ofNat i - dst).toNat < len.toNat →
    lib.dmaCopy ram src dst len (dst + UInt32.ofNat i) = ram (src + UInt32.ofNat i)
  open_off : ∀ ram fdt buf len, (lib.fdtOpenInto ram fdt buf len).1 = 0 →
    SameOff buf len.toNat ram (lib.fdtOpenInto ram fdt buf len).2
  open_holds : ∀ ram fdt buf len, (lib.fdtOpenInto ram fdt buf len).1 = 0 →
    Holds (lib.fdtOpenInto ram fdt buf len).2 buf (opened ram fdt len)
  opened_congr : ∀ ram ram' fdt len, 8 ≤ (fdtTotalsize ram fdt).toNat →
    readBytes ram' fdt (fdtTotalsize ram fdt).toNat =
      readBytes ram fdt (fdtTotalsize ram fdt).toNat →
    opened ram' fdt len = opened ram fdt len

/-! ## The model -/

def ihCompNone : UInt8 := 0

/-- `struct image_info`, of the kernel: the container it was found in, the image within it, and
where it is to go. -/
structure ImageInfo where
  start : UInt32
  ending : UInt32
  imageStart : UInt32
  imageLen : UInt32
  load : UInt32
  comp : UInt8
  deriving DecidableEq

/-- `struct bootm_headers`, the memory it talks about included. -/
structure BootmHeaders (ρ : Type) where
  ram : Memory
  lmb : ρ
  os : ImageInfo
  legacyHdrValid : Bool
  rdStart : UInt32
  rdEnd : UInt32
  ftAddr : UInt32
  ftLen : UInt32
  initrdStart : UInt32
  initrdEnd : UInt32

/-- The environment and the configuration. -/
structure BootEnv where
  initrdHigh : Option UInt32
  fdtHigh : Option UInt32
  bootmMapsize : UInt32
  bootmLow : UInt32
  sysBootmLen : UInt32
  sysFdtPad : UInt32

/-- The return value of `bootm_load_os`: 0, or one of `BOOTM_ERR_*`. -/
inductive LoadResult where
  | ok
  | reset
  | overlap
  | unimplemented
  deriving DecidableEq

def enosys : Int := 38
def enospc : Int := 28

/-- `BOOTM_STATE_LOADOS`, `BOOTM_STATE_RAMDISK` and `BOOTM_STATE_FDT`. -/
def bootmStateLoados : UInt32 := 0x8
def bootmStateRamdisk : UInt32 := 0x10
def bootmStateFdt : UInt32 := 0x20

variable {ρ : Type} (lib : BootLib ρ) (env : BootEnv)

/-- `image_decomp`: an error code, the end of what was loaded, and the memory. -/
def imageDecomp (ram : Memory) (comp : UInt8) (load imageStart imageLen uncLen : UInt32) :
    Int × UInt32 × Memory :=
  if comp = ihCompNone then
    if load = imageStart then (0, load + imageLen, ram)
    else if imageLen ≤ uncLen then
      let imageLen := if imageLen % 8 ≠ 0 then imageLen / 8 * 8 + 8 else imageLen
      if imageStart &&& 0x80000000 ≠ 0 then
        (0, load + imageLen, copy ram load imageStart imageLen.toNat)
      else (0, load + imageLen, lib.dmaCopy ram imageStart load imageLen)
    else (-enospc, load + imageLen, ram)
  else
    let (ret, imageLen, ram) := lib.decompress ram comp load imageStart imageLen uncLen
    (ret, load + imageLen, ram)

def handleDecompError (ret : Int) : LoadResult := if ret = -enosys then .unimplemented else .reset

/-- The kernel was put where a part of its own container was. -/
def overlapsContainer (os : ImageInfo) (loadEnd : UInt32) : Bool :=
  let noOverlap := os.comp = ihCompNone ∧ os.load = os.imageStart
  ¬ noOverlap ∧ os.load < os.ending ∧ loadEnd > os.start

def bootmLoadOs (images : BootmHeaders ρ) : LoadResult × BootmHeaders ρ :=
  let os := images.os
  let (err, loadEnd, ram) :=
    imageDecomp lib images.ram os.comp os.load os.imageStart os.imageLen env.sysBootmLen
  let images := { images with ram := ram }
  if err ≠ 0 then (handleDecompError err, images)
  else if overlapsContainer os loadEnd then
    (if images.legacyHdrValid then .overlap else .reset, images)
  else (.ok, { images with lmb := (lib.lmbReserve images.lmb os.load (loadEnd - os.load)).2 })

def bootRamdiskHigh (images : BootmHeaders ρ) (rdData rdLen : UInt32) :
    Int × BootmHeaders ρ :=
  let (initrdHigh, copyToRam) : UInt32 × Bool := match env.initrdHigh with
    | some initrdHigh => (initrdHigh, initrdHigh ≠ 0xffffffff)
    | none => (env.bootmMapsize + env.bootmLow, true)
  if rdData ≠ 0 then
    if !copyToRam then
      (0, { images with
        initrdStart := rdData
        initrdEnd := rdData + rdLen
        lmb := (lib.lmbReserve images.lmb rdData rdLen).2 })
    else
      let (initrdStart, lmb) :=
        if initrdHigh ≠ 0 then lib.lmbAllocBase images.lmb rdLen 0x1000 initrdHigh
        else lib.lmbAlloc images.lmb rdLen 0x1000
      if initrdStart = 0 then (-1, { images with initrdStart := 0, lmb := lmb })
      else
        (0, { images with
          initrdStart := initrdStart
          initrdEnd := initrdStart + rdLen
          lmb := lmb
          ram := copy images.ram initrdStart rdData rdLen.toNat })
  else (0, { images with initrdStart := 0, initrdEnd := 0 })

/-- `boot_fdt_add_mem_rsv_regions`.  A region that cannot be reserved is reported on the console. -/
def bootFdtAddMemRsvRegions (images : BootmHeaders ρ) : BootmHeaders ρ :=
  if lib.fdtCheckHeader images.ram images.ftAddr ≠ 0 then images
  else
    { images with
      lmb := (lib.fdtReserved images.ram images.ftAddr).foldl
        (fun lmb r => (lib.lmbReserve lmb r.1 r.2).2) images.lmb }

/-- The choice of a place in `boot_relocate_fdt`, 0 for none, and whether it is the place where the
tree is. -/
def fdtPlace (lmb : ρ) (fdtBlob ofLen : UInt32) : Bool × UInt32 × ρ :=
  match env.fdtHigh with
  | some desiredAddr =>
    if desiredAddr = 0xffffffff then (true, fdtBlob, (lib.lmbReserve lmb fdtBlob ofLen).2)
    else if desiredAddr ≠ 0 then (false, lib.lmbAllocBase lmb ofLen 0x1000 desiredAddr)
    else (false, lib.lmbAlloc lmb ofLen 0x1000)
  | none => (false, lib.lmbAllocBase lmb ofLen 0x1000 (env.bootmMapsize + env.bootmLow))

def bootRelocateFdt (images : BootmHeaders ρ) : Int × BootmHeaders ρ :=
  if images.ftLen = 0 then (0, images)
  else if lib.fdtCheckHeader images.ram images.ftAddr ≠ 0 then (1, images)
  else
    let ofLen := images.ftLen + env.sysFdtPad
    let (disableRelocation, ofStart, lmb) := fdtPlace lib env images.lmb images.ftAddr ofLen
    let images := { images with lmb := lmb }
    if ofStart = 0 then (1, images)
    else if disableRelocation then
      (0, { images with
        ram := fdtSetTotalsize images.ram ofStart ofLen, ftAddr := ofStart, ftLen := ofLen })
    else
      let (err, ram) := lib.fdtOpenInto images.ram images.ftAddr ofStart ofLen
      let images := { images with ram := ram }
      if err ≠ 0 then (1, images)
      else (0, { images with ftAddr := ofStart, ftLen := ofLen })

/-- "Load the OS" in `do_bootm_states`: an overlap counts as a success. -/
def loadosState (images : BootmHeaders ρ) : Option (BootmHeaders ρ) :=
  match bootmLoadOs lib env images with
  | (.ok, images) | (.overlap, images) => some images
  | _ => none

def ramdiskState (images : BootmHeaders ρ) : Option (BootmHeaders ρ) :=
  let (ret, images) :=
    bootRamdiskHigh lib env images images.rdStart (images.rdEnd - images.rdStart)
  if ret = 0 then some images else none

/-- The state after that, for the device tree. -/
def fdtState (images : BootmHeaders ρ) : Option (BootmHeaders ρ) :=
  let (ret, images) := bootRelocateFdt lib env (bootFdtAddMemRsvRegions lib images)
  if ret = 0 then some images else none

/-- The states of `do_bootm_states` that load the kernel and move the ramdisk and the device tree;
`none` if one of them fails. -/
def doBootmStates (states : UInt32) (images : BootmHeaders ρ) : Option (BootmHeaders ρ) :=
  let run (flag : UInt32) (state : BootmHeaders ρ → Option (BootmHeaders ρ)) images :=
    if states &&& flag = 0 then some images else state images
  (run bootmStateLoados (loadosState lib env) images).bind fun images =>
    (run bootmStateRamdisk (ramdiskState lib env) images).bind
      (run bootmStateFdt (fdtState lib env))

/-! ## What each state can do -/

variable {lib env} {images images' : BootmHeaders ρ}

/-- The region that the kernel is loaded to: its length, from what was found. -/
def kernelLen (lib : BootLib ρ) (env : BootEnv) (images : BootmHeaders ρ) : UInt32 :=
  (imageDecomp lib images.ram images.os.comp images.os.load images.os.imageStart
    images.os.imageLen env.sysBootmLen).2.1 - images.os.load

def initrdRelocated (env : BootEnv) : Bool := env.initrdHigh ≠ some 0xffffffff

/-- A relocated device tree. -/
def fdtRelocated (env : BootEnv) : Bool := env.fdtHigh ≠ some 0xffffffff

/-- What loading the kernel can do, if the states that follow are reached. -/
inductive LoadStep (lib : BootLib ρ) (env : BootEnv) (images : BootmHeaders ρ) :
    BootmHeaders ρ → Prop
  /-- The kernel is loaded and its region reserved, or at least asked for. -/
  | loaded (ram : Memory) (hok : (imageDecomp lib images.ram images.os.comp images.os.load
      images.os.imageStart images.os.imageLen env.sysBootmLen).1 = 0)
      (hram : ram = (imageDecomp lib images.ram images.os.comp images.os.load
        images.os.imageStart images.os.imageLen env.sysBootmLen).2.2) :
    LoadStep lib env images { images with
      ram := ram
      lmb := (lib.lmbReserve images.lmb images.os.load (kernelLen lib env images)).2 }
  /-- The container of a legacy image was overwritten, and nothing is reserved. -/
  | overlap (ram : Memory) (hlegacy : images.legacyHdrValid = true)
      (hover : overlapsContainer images.os (images.os.load + kernelLen lib env images) = true) :
    LoadStep lib env images { images with ram := ram }

/-- What moving the ramdisk can do. -/
inductive RamdiskStep (lib : BootLib ρ) (env : BootEnv) (images : BootmHeaders ρ)
    (rdData rdLen : UInt32) : BootmHeaders ρ → Prop
  | none (h : rdData = 0) :
    RamdiskStep lib env images rdData rdLen { images with initrdStart := 0, initrdEnd := 0 }
  | inPlace (h : rdData ≠ 0) (henv : initrdRelocated env = false) :
    RamdiskStep lib env images rdData rdLen { images with
      initrdStart := rdData
      initrdEnd := rdData + rdLen
      lmb := (lib.lmbReserve images.lmb rdData rdLen).2 }
  | moved (h : rdData ≠ 0) (henv : initrdRelocated env = true) (place : UInt32 × ρ)
      (halloc : (∃ max, place = lib.lmbAllocBase images.lmb rdLen 0x1000 max) ∨
        place = lib.lmbAlloc images.lmb rdLen 0x1000) (hplace : place.1 ≠ 0) :
    RamdiskStep lib env images rdData rdLen { images with
      initrdStart := place.1
      initrdEnd := place.1 + rdLen
      lmb := place.2
      ram := copy images.ram place.1 rdData rdLen.toNat }

/-- What moving the device tree can do. -/
inductive FdtStep (lib : BootLib ρ) (env : BootEnv) (images : BootmHeaders ρ) :
    BootmHeaders ρ → Prop
  | none (h : images.ftLen = 0) : FdtStep lib env images images
  | inPlace (h : images.ftLen ≠ 0) (henv : fdtRelocated env = false) (lmb : ρ) :
    FdtStep lib env images { images with
      ram := fdtSetTotalsize images.ram images.ftAddr (images.ftLen + env.sysFdtPad)
      lmb := lmb
      ftLen := images.ftLen + env.sysFdtPad }
  | moved (h : images.ftLen ≠ 0) (henv : fdtRelocated env = true) (place : UInt32 × ρ)
      (halloc : (∃ max, place =
          lib.lmbAllocBase images.lmb (images.ftLen + env.sysFdtPad) 0x1000 max) ∨
        place = lib.lmbAlloc images.lmb (images.ftLen + env.sysFdtPad) 0x1000)
      (hplace : place.1 ≠ 0)
      (hopen : (lib.fdtOpenInto images.ram images.ftAddr place.1
        (images.ftLen + env.sysFdtPad)).1 = 0) :
    FdtStep lib env images { images with
      ram := (lib.fdtOpenInto images.ram images.ftAddr place.1 (images.ftLen + env.sysFdtPad)).2
      lmb := place.2
      ftAddr := place.1
      ftLen := images.ftLen + env.sysFdtPad }

theorem add_kernelLen : images.os.load + kernelLen lib env images =
    (imageDecomp lib images.ram images.os.comp images.os.load images.os.imageStart
      images.os.imageLen env.sysBootmLen).2.1 := by
  unfold kernelLen
  rw [UInt32.add_comm, UInt32.sub_add_cancel]

theorem loadStep (h : (bootmLoadOs lib env images).1 = .ok ∨
    (bootmLoadOs lib env images).1 = .overlap) :
    LoadStep lib env images (bootmLoadOs lib env images).2 := by
  have hhandle (ret : Int) : handleDecompError ret ≠ .ok ∧ handleDecompError ret ≠ .overlap := by
    unfold handleDecompError
    split <;> exact ⟨by decide, by decide⟩
  unfold bootmLoadOs at h ⊢
  dsimp only at h ⊢
  split
  · rename_i herr
    rw [if_pos herr] at h
    exact absurd h (not_or.mpr (hhandle _))
  · rename_i herr
    rw [if_neg herr] at h
    split
    · rename_i hover
      rw [if_pos hover] at h
      refine .overlap _ ?_ (by rw [add_kernelLen]; exact hover)
      by_contra hlegacy
      dsimp only at h
      rw [if_neg hlegacy] at h
      exact absurd h (by decide)
    · exact .loaded _ (not_not.mp herr) rfl

theorem ramdiskStep {rdData rdLen : UInt32}
    (h : (bootRamdiskHigh lib env images rdData rdLen).1 = 0) :
    RamdiskStep lib env images rdData rdLen (bootRamdiskHigh lib env images rdData rdLen).2 := by
  have hlimit : ∃ limit, (match env.initrdHigh with
      | some initrdHigh => (initrdHigh, decide (initrdHigh ≠ 0xffffffff))
      | none => (env.bootmMapsize + env.bootmLow, true)) = (limit, initrdRelocated env) := by
    unfold initrdRelocated
    cases env.initrdHigh with
    | none => exact ⟨_, rfl⟩
    | some high => exact ⟨high, by simp⟩
  obtain ⟨limit, hlimit⟩ := hlimit
  unfold bootRamdiskHigh at h ⊢
  rw [hlimit] at h ⊢
  dsimp only at h ⊢
  by_cases hdata : rdData = 0
  · rw [if_neg (not_not.mpr hdata)]
    exact .none hdata
  rw [if_pos hdata] at h ⊢
  cases henv : initrdRelocated env with
  | false => exact .inPlace hdata henv
  | true =>
    rw [henv] at h
    generalize hplace : (if limit ≠ 0 then lib.lmbAllocBase images.lmb rdLen 0x1000 limit
      else lib.lmbAlloc images.lmb rdLen 0x1000) = place at h ⊢
    simp only [Bool.not_true, Bool.false_eq_true, if_false] at h ⊢
    by_cases hzero : place.1 = 0
    · rw [if_pos hzero] at h
      exact absurd h (by decide : (-1 : Int) ≠ 0)
    · rw [if_neg hzero]
      refine .moved hdata henv place ?_ hzero
      split at hplace
      · exact .inl ⟨_, hplace.symm⟩
      · exact .inr hplace.symm

theorem fdtPlace_cases (lib : BootLib ρ) (env : BootEnv) (lmb : ρ) (fdtBlob ofLen : UInt32) :
    (fdtRelocated env = false ∧
        fdtPlace lib env lmb fdtBlob ofLen =
          (true, fdtBlob, (lib.lmbReserve lmb fdtBlob ofLen).2)) ∨
      ∃ place, fdtRelocated env = true ∧ fdtPlace lib env lmb fdtBlob ofLen = (false, place) ∧
        ((∃ max, place = lib.lmbAllocBase lmb ofLen 0x1000 max) ∨
          place = lib.lmbAlloc lmb ofLen 0x1000) := by
  unfold fdtPlace fdtRelocated
  cases env.fdtHigh with
  | none => exact .inr ⟨_, rfl, rfl, .inl ⟨_, rfl⟩⟩
  | some high =>
    by_cases hall : high = 0xffffffff
    · rw [hall]
      exact .inl ⟨rfl, if_pos rfl⟩
    · right
      dsimp only
      rw [if_neg hall]
      have henv : decide (some high ≠ some 0xffffffff) = true := by simp [hall]
      split
      · exact ⟨_, henv, rfl, .inl ⟨_, rfl⟩⟩
      · exact ⟨_, henv, rfl, .inr rfl⟩

theorem fdtStep (h : (bootRelocateFdt lib env images).1 = 0) :
    FdtStep lib env images (bootRelocateFdt lib env images).2 := by
  have hone : ¬ (1 : Int) = 0 := by decide
  unfold bootRelocateFdt at h ⊢
  by_cases hlen : images.ftLen = 0
  · rw [if_pos hlen]
    exact .none hlen
  rw [if_neg hlen] at h ⊢
  by_cases hcheck : lib.fdtCheckHeader images.ram images.ftAddr ≠ 0
  · rw [if_pos hcheck] at h
    exact absurd h hone
  rw [if_neg hcheck] at h ⊢
  dsimp only at h ⊢
  rcases fdtPlace_cases lib env images.lmb images.ftAddr
    (images.ftLen + env.sysFdtPad) with ⟨henv, hplace⟩ | ⟨place, henv, hplace, halloc⟩
  · rw [hplace] at h ⊢
    dsimp only at h ⊢
    by_cases hzero : images.ftAddr = 0
    · rw [if_pos hzero] at h
      exact absurd h hone
    · rw [if_neg hzero, if_pos rfl]
      exact .inPlace hlen henv _
  · rw [hplace] at h ⊢
    dsimp only at h ⊢
    by_cases hzero : place.1 = 0
    · rw [if_pos hzero] at h
      exact absurd h hone
    rw [if_neg hzero, if_neg Bool.false_ne_true] at h ⊢
    by_cases herr : (lib.fdtOpenInto images.ram images.ftAddr place.1
        (images.ftLen + env.sysFdtPad)).1 ≠ 0
    · rw [if_pos herr] at h
      exact absurd h hone
    · rw [if_neg herr]
      exact .moved hlen henv place halloc hzero (not_not.mp herr)

theorem loadStep_of_some (h : loadosState lib env images = some images') :
    LoadStep lib env images images' := by
  have hstep : (bootmLoadOs lib env images).1 = .ok ∨ (bootmLoadOs lib env images).1 = .overlap →
      LoadStep lib env images (bootmLoadOs lib env images).2 := loadStep
  unfold loadosState at h
  generalize bootmLoadOs lib env images = r at h hstep
  obtain ⟨ret, images''⟩ := r
  cases ret with
  | ok => exact Option.some_inj.mp h ▸ hstep (.inl rfl)
  | overlap => exact Option.some_inj.mp h ▸ hstep (.inr rfl)
  | reset => cases h
  | unimplemented => cases h

theorem ramdiskStep_of_some (h : ramdiskState lib env images = some images') :
    RamdiskStep lib env images images.rdStart (images.rdEnd - images.rdStart) images' := by
  unfold ramdiskState at h
  dsimp only at h
  split at h
  · rename_i hret
    exact Option.some_inj.mp h ▸ ramdiskStep hret
  · cases h

theorem fdtStep_of_some (h : fdtState lib env images = some images') :
    FdtStep lib env (bootFdtAddMemRsvRegions lib images) images' := by
  unfold fdtState at h
  dsimp only at h
  split at h
  · rename_i hret
    exact Option.some_inj.mp h ▸ fdtStep hret
  · cases h

end RealtekIpcam.Uboot
