import RealtekIpcam.Lib.RangeTable

/-!
# Where U-Boot goes in memory

Before it relocates itself U-Boot reserves what it needs from the top of the memory down.  The
steps of `init_sequence_f` move `gd->relocaddr` and `gd->start_addr_sp`, with arithmetic that wraps.

The places are used by code elsewhere that computes them anew: `initr_malloc` takes the memory below
the image for the heap, and `_main` takes the global data to be right below the board data.  The
configuration is that of the board, without an embedded device tree.
-/

namespace RealtekIpcam.Uboot.ReserveMemory

abbrev Word := BitVec 32

/-- `x & ~(2^k - 1)`. -/
def alignDown (x : Word) (k : Nat) : Word := x &&& ~~~BitVec.ofNat 32 (2 ^ k - 1)

/-- The sizes of the build. -/
structure Config where
  sdramBase : Word
  pgtableSize : Word
  totalMallocLen : Word
  sizeofBd : Word
  sizeofGd : Word
  fdtFlashSize : Word
  pgtableSize_pos : pgtableSize ≠ 0

/-- `struct global_data`, as far as it is about places. -/
structure Gd where
  monLen : Word
  ramBase : Word
  ramSize : Word
  ramTop : Word
  relocaddr : Word
  tlbAddr : Word
  startAddrSp : Word
  bd : Word
  newGd : Word
  newFdt : Word

variable (c : Config)

/-- `setup_dest_addr`, with `board_get_usable_ram_top`. -/
def setupDestAddr (gd : Gd) : Gd :=
  let top := c.sdramBase + gd.ramSize
  let top := if top < c.sdramBase then 0 else top
  { gd with ramBase := c.sdramBase, ramTop := top, relocaddr := top }

def reserveRound4k (gd : Gd) : Gd := { gd with relocaddr := alignDown gd.relocaddr 12 }

def reserveMmu (gd : Gd) : Gd :=
  let addr := alignDown (gd.relocaddr - c.pgtableSize) 16
  { gd with relocaddr := addr, tlbAddr := addr }

def reserveUboot (gd : Gd) : Gd :=
  let addr := alignDown (gd.relocaddr - gd.monLen) 12
  { gd with relocaddr := addr, startAddrSp := addr }

def reserveMalloc (gd : Gd) : Gd := { gd with startAddrSp := gd.startAddrSp - c.totalMallocLen }

def reserveBoard (gd : Gd) : Gd :=
  if gd.bd = 0 then
    { gd with startAddrSp := gd.startAddrSp - c.sizeofBd, bd := gd.startAddrSp - c.sizeofBd }
  else gd

def reserveGlobalData (gd : Gd) : Gd :=
  { gd with startAddrSp := gd.startAddrSp - c.sizeofGd, newGd := gd.startAddrSp - c.sizeofGd }

def reserveFdt (gd : Gd) : Gd :=
  let addr := alignDown (gd.startAddrSp - c.fdtFlashSize) 7
  { gd with startAddrSp := addr, newFdt := addr }

/-- `reserve_stacks`, up to what the architecture adds. -/
def reserveStacks (gd : Gd) : Gd := { gd with startAddrSp := alignDown (gd.startAddrSp - 16) 4 }

/-- The part of `init_sequence_f` that reserves memory. -/
def reserveAll (gd : Gd) : Gd :=
  reserveStacks (reserveFdt c (reserveGlobalData c (reserveBoard c (reserveMalloc c (reserveUboot
    (reserveMmu c (reserveRound4k (setupDestAddr c gd))))))))

/-- `malloc_start` of `initr_malloc`. -/
def mallocStart (gd : Gd) : Word := gd.relocaddr - c.totalMallocLen

/-- `r9` of `_main`. -/
def mainGd (gd : Gd) : Word := gd.bd - c.sizeofGd

/-! ## Taking memory from the top -/

theorem toNat_alignDown (x : Word) {k : Nat} (hk : k ≤ 32) :
    (alignDown x k).toNat = x.toNat / 2 ^ k * 2 ^ k := by
  refine Nat.eq_of_testBit_eq fun i => ?_
  have hmask : (2 ^ k - 1) % 2 ^ 32 = 2 ^ k - 1 := by
    have hle := Nat.pow_le_pow_right (show 0 < 2 by decide) hk
    exact Nat.mod_eq_of_lt (by omega)
  rw [Nat.testBit_mul_two_pow, Nat.testBit_div_two_pow, ← BitVec.getLsbD, alignDown,
    BitVec.getLsbD_and, BitVec.getLsbD_not, BitVec.getLsbD, BitVec.getLsbD, BitVec.toNat_ofNat,
    hmask, Nat.testBit_two_pow_sub_one]
  by_cases hi : k ≤ i
  · rw [Nat.sub_add_cancel hi]
    by_cases h32 : i < 32
    · simp [hi, h32]
    · have hx : x.toNat.testBit i = false := BitVec.getLsbD_of_ge x i (by omega)
      simp [hx]
  · simp [hi, Nat.lt_of_not_le hi]

/-- Memory is taken below a place that may be the end of the address space. -/
theorem toNat_alignDown_sub {top size : Word} {T k : Nat} (htop : top.toNat = T % 2 ^ 32)
    (hT : T < 2 ^ 32 ∨ T = 2 ^ 32 ∧ size ≠ 0) (hle : size.toNat ≤ T) (hk : k ≤ 32) :
    (alignDown (top - size) k).toNat + size.toNat ≤ T ∧
      T < (alignDown (top - size) k).toNat + size.toNat + 2 ^ k ∧
      2 ^ k ∣ (alignDown (top - size) k).toNat := by
  have hpos : T = 2 ^ 32 → size.toNat ≠ 0 := fun hfull h =>
    (hT.resolve_left (by omega)).2 (BitVec.eq_of_toNat_eq h)
  have hsub : (top - size).toNat = T - size.toNat := by
    have hlt := size.isLt
    rw [BitVec.toNat_sub, htop]
    omega
  have hdiv := Nat.div_add_mod (T - size.toNat) (2 ^ k)
  have hmod := Nat.mod_lt (T - size.toNat) (Nat.two_pow_pos k)
  rw [toNat_alignDown _ hk, hsub]
  refine ⟨?_, ?_, Nat.dvd_mul_left ..⟩
  · have := Nat.div_mul_le_self (T - size.toNat) (2 ^ k)
    omega
  · rw [Nat.mul_comm] at hdiv
    omega

theorem toNat_sub_add {top size : Word} (hle : size.toNat ≤ top.toNat) :
    (top - size).toNat + size.toNat = top.toNat := by
  have hlt := size.isLt
  have htop := top.isLt
  rw [BitVec.toNat_sub]
  omega

/-! ## The places -/

/-- What is in memory above the stack, from below, as the code finds it that uses it. -/
def regions (gd : Gd) : List (Nat × Nat) :=
  [(gd.newFdt, c.fdtFlashSize), (mainGd c gd, c.sizeofGd), (gd.bd, c.sizeofBd),
    (mallocStart c gd, c.totalMallocLen), (gd.relocaddr, gd.monLen),
    (gd.tlbAddr, c.pgtableSize)].map fun r => (r.1.toNat, r.2.toNat)

/-- The places are in order up to `T`, with the stack below them. -/
structure Reserved (T : Nat) (gd : Gd) : Prop where
  ordered : RangeTable.Ordered Prod.fst (fun r => r.1 + r.2) (regions c gd)
  within : ∀ r ∈ regions c gd, gd.startAddrSp.toNat + 16 ≤ r.1 ∧ r.1 + r.2 ≤ T
  stack : c.sdramBase.toNat ≤ gd.startAddrSp.toNat
  main : mainGd c gd = gd.newGd
  heap : mallocStart c gd = gd.bd + c.sizeofBd
  aligned : 2 ^ 16 ∣ gd.tlbAddr.toNat ∧ 2 ^ 12 ∣ gd.relocaddr.toNat ∧ 2 ^ 7 ∣ gd.newFdt.toNat ∧
    2 ^ 4 ∣ gd.startAddrSp.toNat

variable {c}

/-- The top of memory is taken modulo the size of the address space. -/
theorem toNat_relocaddr_setupDestAddr (gd : Gd) : (setupDestAddr c gd).relocaddr.toNat =
    min (c.sdramBase.toNat + gd.ramSize.toNat) (2 ^ 32) % 2 ^ 32 := by
  have hbase := c.sdramBase.isLt
  have hsize := gd.ramSize.isLt
  rw [setupDestAddr]
  dsimp only
  split
  next hlt =>
    rw [BitVec.lt_def, BitVec.toNat_add] at hlt
    show 0 = _
    omega
  next hge =>
    rw [BitVec.lt_def, BitVec.toNat_add] at hge
    rw [BitVec.toNat_add]
    omega

/-- **Everything gets a place of its own**, if there is room, also when memory goes up to the end of
the address space or past it. -/
theorem reserveAll_reserved (gd : Gd) (hbd : gd.bd = 0) {T : Nat}
    (hT : T = min (c.sdramBase.toNat + gd.ramSize.toNat) (2 ^ 32))
    (hroom : c.sdramBase.toNat + c.pgtableSize.toNat + gd.monLen.toNat + c.totalMallocLen.toNat +
      c.sizeofBd.toNat + c.sizeofGd.toNat + c.fdtFlashSize.toNat + 0x13000 ≤ T) :
    Reserved c T (reserveAll c gd) := by
  obtain ⟨top, htop⟩ : ∃ top, top = (setupDestAddr c gd).relocaddr := ⟨_, rfl⟩
  have hnat : top.toNat = T % 2 ^ 32 := by rw [htop, toNat_relocaddr_setupDestAddr, hT]
  have hfull : T ≤ 2 ^ 32 := hT ▸ Nat.min_le_right ..
  clear hT
  obtain ⟨r, hr⟩ : ∃ r, r = alignDown top 12 := ⟨_, rfl⟩
  have hr0 : r.toNat = T / 4096 * 4096 % 2 ^ 32 := by
    rw [hr, toNat_alignDown top (by decide), hnat]
    omega
  -- Each place is below the one before, and leaves room for the others.
  obtain ⟨tlb, htlb⟩ : ∃ a, a = alignDown (r - c.pgtableSize) 16 := ⟨_, rfl⟩
  obtain ⟨t1, t2, t3⟩ := toNat_alignDown_sub (T := T / 4096 * 4096) (k := 16) hr0
    ((Nat.lt_or_ge _ _).imp_right fun h => ⟨by omega, c.pgtableSize_pos⟩) (by omega) (by decide)
  rw [← htlb] at t1 t2 t3
  have hend : tlb.toNat + c.pgtableSize.toNat ≤ T := by omega
  have hbelow : c.sdramBase.toNat + gd.monLen.toNat + c.totalMallocLen.toNat +
      c.sizeofBd.toNat + c.sizeofGd.toNat + c.fdtFlashSize.toNat + 0x2000 ≤ tlb.toNat := by omega
  clear hroom hfull hnat hr0 t1 t2
  obtain ⟨img, himg⟩ : ∃ a, a = alignDown (tlb - gd.monLen) 12 := ⟨_, rfl⟩
  obtain ⟨i1, i2, i3⟩ := toNat_alignDown_sub (k := 12) (Nat.mod_eq_of_lt tlb.isLt).symm
    (.inl tlb.isLt) (show gd.monLen.toNat ≤ _ by omega) (by decide)
  rw [← himg] at i1 i2 i3
  obtain ⟨heap, hheap⟩ : ∃ a, a = img - c.totalMallocLen := ⟨_, rfl⟩
  have h1 := toNat_sub_add (show c.totalMallocLen.toNat ≤ img.toNat by omega)
  rw [← hheap] at h1
  obtain ⟨bd, hbd'⟩ : ∃ a, a = heap - c.sizeofBd := ⟨_, rfl⟩
  have b1 := toNat_sub_add (show c.sizeofBd.toNat ≤ heap.toNat by omega)
  rw [← hbd'] at b1
  obtain ⟨data, hdata⟩ : ∃ a, a = bd - c.sizeofGd := ⟨_, rfl⟩
  have d1 := toNat_sub_add (show c.sizeofGd.toNat ≤ bd.toNat by omega)
  rw [← hdata] at d1
  have hleft : c.sdramBase.toNat + c.fdtFlashSize.toNat + 0x1000 ≤ data.toNat := by omega
  clear hbelow i2
  obtain ⟨fdt, hfdt⟩ : ∃ a, a = alignDown (data - c.fdtFlashSize) 7 := ⟨_, rfl⟩
  obtain ⟨f1, f2, f3⟩ := toNat_alignDown_sub (k := 7) (Nat.mod_eq_of_lt data.isLt).symm
    (.inl data.isLt) (show c.fdtFlashSize.toNat ≤ _ by clear * - hleft; omega) (by decide)
  rw [← hfdt] at f1 f2 f3
  have hlast : c.sdramBase.toNat + 32 ≤ fdt.toNat := by clear * - hleft f2; omega
  obtain ⟨sp, hsp⟩ : ∃ a, a = alignDown (fdt - 16) 4 := ⟨_, rfl⟩
  obtain ⟨s1, s2, s3⟩ := toNat_alignDown_sub (k := 4)
    (Nat.mod_eq_of_lt fdt.isLt).symm (.inl fdt.isLt)
    (show (16 : Word).toNat ≤ _ by show 16 ≤ _; clear * - hlast; omega) (by decide)
  rw [← hsp] at s1 s2 s3
  replace s1 : sp.toNat + 16 ≤ fdt.toNat := s1
  replace s2 : fdt.toNat < sp.toNat + 16 + 2 ^ 4 := s2
  have hall : reserveAll c gd = { setupDestAddr c gd with
      relocaddr := img, tlbAddr := tlb, startAddrSp := sp, bd := bd, newGd := data,
      newFdt := fdt } := by
    have hbd0 : (setupDestAddr c gd).bd = 0 := hbd
    simp only [reserveAll, reserveStacks, reserveFdt, reserveGlobalData, reserveBoard,
      reserveMalloc, reserveUboot, reserveMmu, reserveRound4k, hbd0, if_true, ← htop, ← hr, ← htlb]
    simp [setupDestAddr, himg, hheap, hbd', hdata, hfdt, hsp]
  have hmain : mainGd c (reserveAll c gd) = data := by rw [hall, hdata]; rfl
  have hstart : mallocStart c (reserveAll c gd) = heap := by rw [hall, hheap]; rfl
  have hregions : regions c (reserveAll c gd) = [(fdt.toNat, c.fdtFlashSize.toNat),
      (data.toNat, c.sizeofGd.toNat), (bd.toNat, c.sizeofBd.toNat),
      (heap.toNat, c.totalMallocLen.toNat), (img.toNat, gd.monLen.toNat),
      (tlb.toNat, c.pgtableSize.toNat)] := by
    rw [regions, hmain, hstart, hall]
    rfl
  constructor
  case ordered =>
    rw [hregions]
    simp only [RangeTable.Ordered, List.pairwise_cons, List.forall_mem_cons, List.not_mem_nil,
      false_imp_iff, implies_true, List.Pairwise.nil, and_true]
    clear * - f1 d1 b1 h1 i1
    omega
  case within =>
    rw [hregions, hall]
    simp only [List.forall_mem_cons, List.not_mem_nil, false_imp_iff, implies_true, and_true]
    clear * - s1 f1 d1 b1 h1 i1 hend
    omega
  case stack =>
    rw [hall]
    show _ ≤ sp.toNat
    clear * - hlast s2
    omega
  case main => rw [hmain, hall]
  case heap =>
    rw [hstart, hall, hbd']
    exact (BitVec.sub_add_cancel ..).symm
  case aligned =>
    rw [hall]
    exact ⟨t3, i3, f3, s3⟩

/-- A board with 128 MB at 2 GB. -/
def boardConfig : Config := ⟨0x80000000, 0x4000, 0x840000, 80, 176, 0x20000, by decide⟩

def boardGd : Gd := ⟨0x345e8, 0, 0x8000000, 0, 0, 0, 0, 0, 0, 0⟩

theorem reserveAll_reserved_board :
    Reserved boardConfig 0x88000000 (reserveAll boardConfig boardGd) ∧
    (reserveAll boardConfig boardGd).startAddrSp = 0x8775aef0 :=
  ⟨reserveAll_reserved boardGd rfl (by decide) (by decide), by decide⟩

end RealtekIpcam.Uboot.ReserveMemory
