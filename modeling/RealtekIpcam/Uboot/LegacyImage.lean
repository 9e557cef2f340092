import RealtekIpcam.Lib.Ram
import RealtekIpcam.Uboot.EnvCrash

/-!
# Legacy images, and the components of a multi image

A legacy image is a header of 64 bytes with big-endian words, and its data.  The header has a
checksum of itself and one of the data.

The data of a multi image begin with a table of the sizes of its components, which a zero ends, and
the components follow, each padded to four bytes.  `image_multi_count` looks for the zero and
`image_multi_getimg` adds the sizes up.  Neither looks at the size of the data: as their comments
say, the caller must pass a valid multi component image.  `ValidMulti` is what that means.
-/

namespace RealtekIpcam.Uboot

open Ram Words

/-! ## The header -/

def ihTypeMulti : UInt8 := 4
def ihTypeFlatdt : UInt8 := 8

def imageGetHeaderSize : UInt32 := 64

variable (ram : Memory) (hdr : UInt32)

def imageGetHcrc : UInt32 := htonl (word ram (hdr + 4))
def imageGetSize : UInt32 := htonl (word ram (hdr + 12))
def imageGetLoad : UInt32 := htonl (word ram (hdr + 16))
def imageGetDcrc : UInt32 := htonl (word ram (hdr + 24))
def imageGetType : UInt8 := ram (hdr + 30)
def imageGetComp : UInt8 := ram (hdr + 31)

def imageGetDataSize : UInt32 := imageGetSize ram hdr

def imageGetData : UInt32 := hdr + imageGetHeaderSize

def imageGetImageEnd : UInt32 := hdr + (imageGetSize ram hdr + imageGetHeaderSize)

/-- `image_check_hcrc`: the checksum is taken over the header with its own field cleared. -/
def imageCheckHcrc : Bool :=
  crc32 (readBytes (store ram (hdr + 4) [0, 0, 0, 0]) hdr imageGetHeaderSize.toNat) =
    imageGetHcrc ram hdr

def imageCheckDcrc : Bool :=
  crc32 (readBytes ram (imageGetData hdr) (imageGetDataSize ram hdr).toNat) = imageGetDcrc ram hdr

def imageCheckType (type : UInt8) : Bool := imageGetType ram hdr = type

/-! ## The components -/

/-- The loop of `image_multi_count` from an entry on, for at most so many entries. -/
def countFrom (ram : Memory) : UInt32 → Nat → Option Nat
  | _, 0 => none
  | size, fuel + 1 =>
    if word ram size ≠ 0 then (countFrom ram (size + 4) fuel).map (· + 1) else some 0

/-- `image_multi_count`.  After `2 ^ 30` entries without a zero the addresses begin again, and the
loop does not end. -/
def imageMultiCount : Option Nat := countFrom ram (imageGetData hdr) (2 ^ 30)

/-- `uimage_to_cpu(size[i])`. -/
def multiSize (i : Nat) : UInt32 := htonl (word ram (imageGetData hdr + UInt32.ofNat (4 * i)))

/-- `offset` after the loop over the components before the given one. -/
def multiOffset : Nat → UInt32
  | 0 => 0
  | i + 1 => multiOffset i + ((multiSize ram hdr i + 3) &&& ~~~3)

/-- `image_multi_getimg`: the address and the size. -/
def imageMultiGetimg (idx : Nat) : Option (UInt32 × UInt32) :=
  (imageMultiCount ram hdr).map fun count =>
    let imgData := imageGetData hdr + UInt32.ofNat ((count + 1) * 4)
    if idx < count then (imgData + multiOffset ram hdr idx, multiSize ram hdr idx) else (0, 0)

/-- **The components are in bounds**: the table with its end lies in the data, and so does every
component; each ends before the next begins.  Positions are relative to the data. -/
structure MultiBounds (n : Nat) : Prop where
  count : imageMultiCount ram hdr = some n
  table : 4 * (n + 1) ≤ (imageGetDataSize ram hdr).toNat
  past : ∀ idx, n ≤ idx → imageMultiGetimg ram hdr idx = some (0, 0)
  inside : ∀ idx < n, ∃ img, imageMultiGetimg ram hdr idx = some img ∧
    (img.1 - imageGetData hdr).toNat + img.2.toNat ≤ (imageGetDataSize ram hdr).toNat
  order : ∀ idx idx', idx < idx' → idx' < n → ∃ img img',
    imageMultiGetimg ram hdr idx = some img ∧ imageMultiGetimg ram hdr idx' = some img' ∧
      (img.1 - imageGetData hdr).toNat + img.2.toNat ≤ (img'.1 - imageGetData hdr).toNat

theorem countFrom_eq {n fuel : Nat} (hfuel : n < fuel) {size : UInt32}
    (hne : ∀ i < n, word ram (size + UInt32.ofNat (4 * i)) ≠ 0)
    (hzero : word ram (size + UInt32.ofNat (4 * n)) = 0) : countFrom ram size fuel = some n := by
  induction n generalizing size fuel with
  | zero =>
    obtain ⟨fuel, rfl⟩ := Nat.exists_eq_succ_of_ne_zero (Nat.ne_of_gt hfuel)
    rw [show UInt32.ofNat (4 * 0) = 0 from rfl, UInt32.add_zero] at hzero
    rw [countFrom, if_neg (fun h => h hzero)]
  | succ n ih =>
    obtain ⟨fuel, rfl⟩ := Nat.exists_eq_succ_of_ne_zero (Nat.ne_of_gt (Nat.zero_lt_of_lt hfuel))
    have hnext : ∀ i, size + 4 + UInt32.ofNat (4 * i) = size + UInt32.ofNat (4 * (i + 1)) := by
      intro i
      rw [Nat.mul_succ, Nat.add_comm, UInt32.ofNat_add, UInt32.add_assoc]
      rfl
    have hhead : word ram size ≠ 0 := by
      have h := hne 0 (Nat.succ_pos n)
      rwa [show UInt32.ofNat (4 * 0) = 0 from rfl, UInt32.add_zero] at h
    rw [countFrom, if_pos hhead, ih (Nat.lt_of_succ_lt_succ hfuel) ?_ ?_]
    · rfl
    · intro i hi
      rw [hnext]
      exact hne (i + 1) (Nat.succ_lt_succ hi)
    · rw [hnext]
      exact hzero

/-! ## Valid images -/

/-- Where a component begins after the table, in numbers without a limit. -/
def compOffset : Nat → Nat
  | 0 => 0
  | i + 1 => compOffset i + ((multiSize ram hdr i).toNat + 3) / 4 * 4

/-- A valid multi component image: the table ends within the data, and the components, padded to
four bytes up to the last, lie within the rest. -/
structure ValidMulti (n : Nat) : Prop where
  count : imageMultiCount ram hdr = some n
  table : 4 * (n + 1) ≤ (imageGetDataSize ram hdr).toNat
  fits : ∀ idx < n, 4 * (n + 1) + compOffset ram hdr idx + (multiSize ram hdr idx).toNat ≤
    (imageGetDataSize ram hdr).toNat

variable {ram hdr} {n idx : Nat}

theorem toNat_padded {x : UInt32} (hx : x.toNat + 3 < 2 ^ 32) :
    ((x + 3) &&& ~~~3).toNat = (x.toNat + 3) / 4 * 4 := by
  have hsum : (x + 3).toNat = x.toNat + 3 := by
    rw [UInt32.toNat_add, show (3 : UInt32).toNat = 3 from rfl]
    exact Nat.mod_eq_of_lt hx
  rw [UInt32.toNat_and, hsum, show (~~~3 : UInt32).toNat = 2 ^ 32 - 1 - 3 from rfl]
  have hsplit : (x.toNat + 3) / 4 * 4 = ((x.toNat + 3) >>> 2) <<< 2 := by
    rw [Nat.shiftLeft_eq, Nat.shiftRight_eq_div_pow]
  rw [hsplit]
  refine Nat.eq_of_testBit_eq fun i => ?_
  have hmask : (2 ^ 32 - 1 - 3).testBit i = (decide (2 ≤ i) && decide (i < 32)) := by
    by_cases hi : i < 32
    · have hall : ∀ j < 32, (2 ^ 32 - 1 - 3).testBit j = decide (2 ≤ j) := by decide
      rw [hall i hi, decide_eq_true hi, Bool.and_true]
    · have hle : 2 ^ 32 ≤ 2 ^ i := Nat.pow_le_pow_right Nat.two_pos (by omega)
      rw [Nat.testBit_lt_two_pow (by omega), decide_eq_false hi, Bool.and_false]
  rw [Nat.testBit_and, hmask, Nat.testBit_shiftLeft, Nat.testBit_shiftRight]
  by_cases hi : i < 32
  · by_cases htwo : 2 ≤ i
    · rw [decide_eq_true hi, decide_eq_true htwo, show 2 + (i - 2) = i by omega, Bool.true_and,
        Bool.true_and, Bool.and_true]
    · rw [decide_eq_false htwo, Bool.false_and, Bool.false_and, Bool.and_false]
  · have hle : 2 ^ 32 ≤ 2 ^ i := Nat.pow_le_pow_right Nat.two_pos (by omega)
    have hbit : (x.toNat + 3).testBit i = false := Nat.testBit_lt_two_pow (by omega)
    by_cases htwo : 2 ≤ i
    · rw [show 2 + (i - 2) = i by omega, hbit, Bool.false_and, Bool.and_false]
    · omega

theorem toNat_multiOffset (h : ∀ i < idx, (multiSize ram hdr i).toNat + 3 < 2 ^ 32) :
    (multiOffset ram hdr idx).toNat = compOffset ram hdr idx % 2 ^ 32 := by
  induction idx with
  | zero => rfl
  | succ idx ih =>
    rw [multiOffset, compOffset, UInt32.toNat_add, ih fun i hi => h i (Nat.lt_succ_of_lt hi),
      toNat_padded (h idx (Nat.lt_succ_self idx)), Nat.mod_add_mod]

theorem getimg_of_lt (hcount : imageMultiCount ram hdr = some n) (hidx : idx < n)
    (htable : 4 * (n + 1) < 2 ^ 32) (h : ∀ i < idx, (multiSize ram hdr i).toNat + 3 < 2 ^ 32) :
    ∃ data, imageMultiGetimg ram hdr idx = some (data, multiSize ram hdr idx) ∧
      (data - imageGetData hdr).toNat = (4 * (n + 1) + compOffset ram hdr idx) % 2 ^ 32 := by
  refine ⟨imageGetData hdr + UInt32.ofNat ((n + 1) * 4) + multiOffset ram hdr idx, ?_, ?_⟩
  · simp only [imageMultiGetimg, hcount, Option.map_some, if_pos hidx]
  · rw [UInt32.add_assoc, UInt32.add_comm, UInt32.add_sub_cancel, UInt32.toNat_add,
      UInt32.toNat_ofNat', toNat_multiOffset h, Nat.mul_comm (n + 1), Nat.mod_eq_of_lt htable,
      Nat.add_mod_mod]

theorem compOffset_mono {i j : Nat} (hij : i ≤ j) :
    compOffset ram hdr i ≤ compOffset ram hdr j := by
  induction j, hij using Nat.le_induction with
  | base => exact Nat.le_refl _
  | succ j _ ih => exact ih.trans (Nat.le_add_right _ _)

theorem ValidMulti.bounds (h : ValidMulti ram hdr n) : MultiBounds ram hdr n := by
  have hsize := (imageGetDataSize ram hdr).toNat_lt
  have hpad : ∀ i < n, (multiSize ram hdr i).toNat + 3 < 2 ^ 32 := fun i hi => by
    have hfits := h.fits i hi
    omega
  have himg : ∀ idx < n, ∃ data, imageMultiGetimg ram hdr idx = some (data, multiSize ram hdr idx) ∧
      (data - imageGetData hdr).toNat = 4 * (n + 1) + compOffset ram hdr idx := by
    intro idx hidx
    have hfits := h.fits idx hidx
    obtain ⟨data, hget, hpos⟩ := getimg_of_lt h.count hidx (h.table.trans_lt hsize)
      fun i hi => hpad i (hi.trans hidx)
    exact ⟨data, hget, hpos.trans (Nat.mod_eq_of_lt (by omega))⟩
  refine ⟨h.count, h.table, fun idx hidx => ?_, fun idx hidx => ?_, fun idx idx' hlt hidx' => ?_⟩
  · simp only [imageMultiGetimg, h.count, Option.map_some, if_neg (Nat.not_lt.mpr hidx)]
  · obtain ⟨data, hget, hpos⟩ := himg idx hidx
    exact ⟨_, hget, hpos ▸ h.fits idx hidx⟩
  · obtain ⟨data, hget, hpos⟩ := himg idx (hlt.trans hidx')
    obtain ⟨data', hget', hpos'⟩ := himg idx' hidx'
    have hnext : compOffset ram hdr (idx + 1) ≤ compOffset ram hdr idx' := compOffset_mono hlt
    rw [compOffset] at hnext
    refine ⟨_, _, hget, hget', ?_⟩
    dsimp only
    omega

theorem MultiBounds.valid (h : MultiBounds ram hdr n) : ValidMulti ram hdr n := by
  have hsize := (imageGetDataSize ram hdr).toNat_lt
  refine ⟨h.count, h.table, fun idx => ?_⟩
  -- Once a component is known to fit, the next begins less than four bytes after its end.
  induction idx using Nat.strong_induction_on with
  | h idx ih =>
    intro hidx
    have hpad : ∀ i < idx, (multiSize ram hdr i).toNat + 3 < 2 ^ 32 := fun i hi => by
      have hfits := ih i hi (hi.trans hidx)
      omega
    obtain ⟨data, hget, hpos⟩ := getimg_of_lt h.count hidx (h.table.trans_lt hsize) hpad
    obtain ⟨img, himg, hinside⟩ := h.inside idx hidx
    obtain rfl : img = (data, multiSize ram hdr idx) := Option.some.inj (himg.symm.trans hget)
    dsimp only at hinside
    have hexact : 4 * (n + 1) + compOffset ram hdr idx < 2 ^ 32 := by
      cases idx with
      | zero =>
        rw [compOffset]
        exact h.table.trans_lt hsize
      | succ k =>
        have hk := ih k (Nat.lt_succ_self k) (Nat.lt_of_succ_lt hidx)
        obtain ⟨dataK, hgetK, hposK⟩ := getimg_of_lt h.count (Nat.lt_of_succ_lt hidx)
          (h.table.trans_lt hsize) fun i hi => hpad i (Nat.lt_succ_of_lt hi)
        obtain ⟨imgK, img, himgK, himg', horder⟩ := h.order k (k + 1) (Nat.lt_succ_self k) hidx
        obtain rfl : imgK = (dataK, multiSize ram hdr k) := Option.some.inj (himgK.symm.trans hgetK)
        obtain rfl : img = (data, multiSize ram hdr (k + 1)) :=
          Option.some.inj (himg'.symm.trans hget)
        dsimp only at horder
        rw [compOffset] at hpos ⊢
        omega
    rw [hpos, Nat.mod_eq_of_lt hexact] at hinside
    exact hinside

/-- **The components of a multi image** are in bounds exactly if the image is valid, for every
memory and every place of the header. -/
theorem multiBounds_iff (ram : Memory) (hdr : UInt32) :
    (∃ n, MultiBounds ram hdr n) ↔ ∃ n, ValidMulti ram hdr n :=
  ⟨fun ⟨n, h⟩ => ⟨n, h.valid⟩, fun ⟨n, h⟩ => ⟨n, h.bounds⟩⟩

/-- A header for four bytes of data, which say that there is a component of one byte. -/
def unendedMulti : Memory :=
  ofBytes 0x1000
    ([0x27, 0x05, 0x19, 0x56, 0x67, 0x1d, 0x41, 0x34, 0, 0, 0, 0, 0, 0, 0, 4,
      0, 0, 0, 0, 0, 0, 0, 0, 0x56, 0x43, 0xef, 0x8a, 5, 2, 4, 0] ++ List.replicate 32 0 ++
      [0, 0, 0, 1])

set_option maxRecDepth 20000 in
/-- Both checksums are correct, and the table ends after the data. -/
theorem unendedMulti_outside :
    imageCheckHcrc unendedMulti 0x1000 = true ∧ imageCheckDcrc unendedMulti 0x1000 = true ∧
      imageCheckType unendedMulti 0x1000 ihTypeMulti = true ∧
      ¬ ∃ n, MultiBounds unendedMulti 0x1000 n := by
  refine ⟨by decide +kernel, by decide +kernel, by decide +kernel, ?_⟩
  rintro ⟨n, h⟩
  have hcount : imageMultiCount unendedMulti 0x1000 = some 1 :=
    countFrom_eq unendedMulti (by decide) (by decide +kernel) (by decide +kernel)
  obtain rfl : n = 1 := Option.some.inj (h.count.symm.trans hcount)
  exact absurd h.table (by decide +kernel)

end RealtekIpcam.Uboot
