import RealtekIpcam.Lib.Interpolation
import RealtekIpcam.Thermal.Code

/-!
# Temperatures to codes and back

`temp2code` interpolates from `actual_k` to `thermal_k` and rounds down to whole degrees of the
sensor, and `code2temp` interpolates back.  As long as the words do not wrap, both are the integer
interpolation between the two tables, and the way there and back loses what one whole degree of the
sensor amounts to in the table (`Faithful`).

Two things go wrong.  Below 0 degrees `temp2code` subtracts 27315 from less and divides the word
that has wrapped, so that the code has nothing of a negative number.  And `code2temp` takes bit 18
for a sign, which `temp2code` sets again for more than 255 degrees.  `conversion_iff` says which
tables avoid this.
-/

namespace RealtekIpcam.Thermal

open Interpolation

/-! ## The tables as integers -/

/-- The entries of a table as numbers. -/
def nodes (tbl : Table) : ℕ → ℤ := fun i => (tbl i).toNat

/-- A table of a sensor: it rises by 1 to 2000 hundredths of a degree from entry to entry. -/
def Calibration (thermalK : Table) : Prop :=
  ∀ i < 17, (thermalK i).toNat + 1 ≤ (thermalK (i + 1)).toNat ∧
    (thermalK (i + 1)).toNat ≤ (thermalK i).toNat + 2000

/-- What the sensor takes the temperature `t` for. -/
def thkAt (thermalK : Table) (t : ℤ) : ℤ := interp (nodes actualK) (nodes thermalK) 16 t

/-- The temperature that the sensor takes for `x`. -/
def tempAt (thermalK : Table) (x : ℤ) : ℤ := interp (nodes thermalK) (nodes actualK) 16 x

variable {K : Table}

theorem nodes_actualK {i : ℕ} (h : i < 18) : nodes actualK i = 26815 + 500 * i := by
  rw [nodes, toNat_actualK h]
  push_cast
  rfl

theorem rising_actualK : Rising (nodes actualK) 17 := by
  intro i hi
  rw [nodes_actualK (by omega), nodes_actualK (by omega)]
  push_cast
  omega

theorem actualK_step {i : ℕ} (hi : i < 17) : nodes actualK (i + 1) - nodes actualK i = 500 := by
  rw [nodes_actualK (by omega), nodes_actualK (by omega)]
  push_cast
  omega

theorem Calibration.step (hK : Calibration K) {i : ℕ} (hi : i < 17) :
    1 ≤ nodes K (i + 1) - nodes K i ∧ nodes K (i + 1) - nodes K i ≤ 2000 := by
  obtain ⟨hlo, hhi⟩ := hK i hi
  simp only [nodes]
  omega

theorem Calibration.rising (hK : Calibration K) : Rising (nodes K) 17 := fun i hi => by
  have hstep := (hK.step hi).1
  omega

theorem segment_isSegment {tbl : Table} (h : Rising (nodes tbl) 17) (v : BitVec 32) :
    Segment (nodes tbl) 17 (segment tbl v) v.toNat := by
  rcases segment_cases tbl v with ⟨hle, hseg⟩ | ⟨i, hi, hall, hle, hseg⟩ | ⟨hall, hseg⟩
  · rw [hseg]
    refine ⟨by omega, fun hpos => absurd hpos (by omega), fun _ => ?_⟩
    have hv : v.toNat ≤ (tbl 0).toNat := BitVec.le_def.mp hle
    have hrise := h 0 (by omega)
    simp only [nodes] at hrise ⊢
    omega
  · rw [hseg]
    have hlow : (tbl i).toNat < v.toNat := BitVec.lt_def.mp (hall i (le_refl i))
    have hup : v.toNat ≤ (tbl (i + 1)).toNat := BitVec.le_def.mp hle
    exact ⟨by omega, fun _ => Int.ofNat_lt.mpr hlow, fun _ => Int.ofNat_le.mpr hup⟩
  · rw [hseg]
    have hlow : (tbl 16).toNat < v.toNat := BitVec.lt_def.mp (hall 16 (le_refl 16))
    exact ⟨by omega, fun _ => Int.ofNat_lt.mpr hlow, fun hlt => absurd hlt (by omega)⟩

theorem line_eq_interp {src : ℕ → ℤ} (h : Rising src 17) (dst : ℕ → ℤ) {i : ℕ} {x : ℤ}
    (hi : Segment src 17 i x) : line src dst i x = interp src dst 16 x := by
  rw [interp, hi.unique h (locate_segment src x 16)]

/-! ## The words -/

theorem ofInt_sub (a b : ℤ) : BitVec.ofInt 32 (a - b) = BitVec.ofInt 32 a - BitVec.ofInt 32 b := by
  rw [sub_eq_add_neg, BitVec.ofInt_add, BitVec.ofInt_neg, BitVec.sub_eq_add_neg]

theorem ofInt_toNat (v : BitVec 32) : BitVec.ofInt 32 (v.toNat : ℤ) = v := by
  rw [BitVec.ofInt_natCast, BitVec.ofNat_toNat, BitVec.setWidth_eq]

theorem ofInt_sub_mul (a m : ℤ) : BitVec.ofInt 32 (a - m * 2 ^ 32) = BitVec.ofInt 32 a := by
  have hword : BitVec.ofInt 32 (2 ^ 32) = 0#32 := by decide
  rw [ofInt_sub, BitVec.ofInt_mul, hword, BitVec.mul_zero, BitVec.sub_zero]

theorem toNat_ofInt_of_mem {a : ℤ} (h0 : 0 ≤ a) (hlt : a < 2 ^ 32) :
    ((BitVec.ofInt 32 a).toNat : ℤ) = a := by
  rw [BitVec.toNat_ofInt]
  omega

theorem sdiv_ofInt {p d : ℤ} (hp : -2 ^ 31 ≤ p) (hp' : p < 2 ^ 31) (hd : -2 ^ 31 ≤ d)
    (hd' : d < 2 ^ 31) :
    (BitVec.ofInt 32 p).sdiv (BitVec.ofInt 32 d) = BitVec.ofInt 32 (p.tdiv d) := by
  refine BitVec.toInt_inj.mp ?_
  rw [BitVec.toInt_sdiv, BitVec.toInt_ofInt_eq_self (by decide) hp hp',
    BitVec.toInt_ofInt_eq_self (by decide) hd hd', BitVec.toInt_ofInt]

/-- **The interpolation of words**, by a product that is small up to multiples of the word size. -/
theorem interpolate_ofInt {src dst : Table} {i : ℕ} {x : BitVec 32} {p : ℤ}
    (hp : BitVec.ofInt 32 ((x.toNat - nodes src i) * (nodes dst (i + 1) - nodes dst i)) =
      BitVec.ofInt 32 p) (hlo : -2 ^ 31 ≤ p) (hhi : p < 2 ^ 31)
    (hd : -2 ^ 31 ≤ nodes src (i + 1) - nodes src i)
    (hd' : nodes src (i + 1) - nodes src i < 2 ^ 31) :
    interpolate src dst i x =
      BitVec.ofInt 32 (p.tdiv (nodes src (i + 1) - nodes src i) + nodes dst i) := by
  have hprod : (x - src i) * (dst (i + 1) - dst i) = BitVec.ofInt 32 p := by
    rw [← hp, BitVec.ofInt_mul, ofInt_sub, ofInt_sub]
    simp only [nodes, ofInt_toNat]
  have hdiv : src (i + 1) - src i = BitVec.ofInt 32 (nodes src (i + 1) - nodes src i) := by
    rw [ofInt_sub]
    simp only [nodes, ofInt_toNat]
  have hbase : dst i = BitVec.ofInt 32 (nodes dst i) := by
    simp only [nodes, ofInt_toNat]
  rw [interpolate, hprod, hdiv, sdiv_ofInt hlo hhi hd hd', BitVec.ofInt_add, ← hbase]

theorem interpolate_eq_line {src dst : Table} {i : ℕ} {x : BitVec 32}
    (hlo : -2 ^ 31 ≤ ((x.toNat : ℤ) - nodes src i) * (nodes dst (i + 1) - nodes dst i))
    (hhi : ((x.toNat : ℤ) - nodes src i) * (nodes dst (i + 1) - nodes dst i) < 2 ^ 31)
    (hd : -2 ^ 31 ≤ nodes src (i + 1) - nodes src i)
    (hd' : nodes src (i + 1) - nodes src i < 2 ^ 31) :
    interpolate src dst i x = BitVec.ofInt 32 (line (nodes src) (nodes dst) i x.toNat) :=
  interpolate_ofInt rfl hlo hhi hd hd'

/-! ## The two directions -/

/-- The temperatures of `actual_k`. -/
def InRange (t : BitVec 32) : Prop := 26815 ≤ t.toNat ∧ t.toNat ≤ 35315

/-- What `temp2code` interpolates. -/
def temp2thk (thermalK : Table) (t : BitVec 32) : BitVec 32 :=
  interpolate actualK thermalK (segment actualK t) t

theorem temp2code_eq (K : Table) (t : BitVec 32) : temp2code K t = thkCode (temp2thk K t) := rfl

/-- **`temp2code` interpolates without overflow**, and stays within the segment of the table. -/
theorem temp2thk_spec (hK : Calibration K) {t : BitVec 32} (ht : InRange t) :
    ((temp2thk K t).toNat : ℤ) = thkAt K t.toNat ∧
      ∃ i < 17, nodes K i ≤ thkAt K t.toNat ∧ thkAt K t.toNat ≤ nodes K (i + 1) := by
  obtain ⟨hlo, hhi⟩ := ht
  have hseg := segment_isSegment rising_actualK t
  have hline := line_eq_interp rising_actualK (nodes K) hseg
  rw [temp2thk]
  generalize segment actualK t = i at hseg hline ⊢
  have hi := hseg.lt
  obtain ⟨hd1, hd2⟩ := hK.step hi
  have hstep := actualK_step hi
  have hnode := nodes_actualK (show i < 18 by omega)
  have hlow : nodes actualK i ≤ t.toNat := by
    rcases Nat.eq_zero_or_pos i with rfl | hpos
    · rw [hnode]
      push_cast
      omega
    · exact le_of_lt (hseg.lower hpos)
  have hup : (t.toNat : ℤ) ≤ nodes actualK (i + 1) := by
    by_cases hlt : i + 1 < 17
    · exact hseg.upper hlt
    · rw [nodes_actualK (by omega)]
      push_cast
      omega
  have hrise : nodes actualK i < nodes actualK (i + 1) := by omega
  have hin := le_line hrise (le_of_lt (hK.rising i hi)) hlow
  have hout := line_le hrise (le_of_lt (hK.rising i hi)) hup
  have hprod : 0 ≤ ((t.toNat : ℤ) - nodes actualK i) * (nodes K (i + 1) - nodes K i) :=
    mul_nonneg (by omega) (by omega)
  have hprod' : ((t.toNat : ℤ) - nodes actualK i) * (nodes K (i + 1) - nodes K i) ≤ 500 * 2000 :=
    mul_le_mul (by omega) hd2 (by omega) (by decide)
  rw [interpolate_eq_line (by omega) (by omega) (by omega) (by omega), hline, ← thkAt] at *
  have hnonneg : 0 ≤ nodes K i := Int.natCast_nonneg _
  have hword : nodes K (i + 1) < 2 ^ 32 := by
    have hlt := (K (i + 1)).isLt
    simp only [nodes]
    omega
  exact ⟨toNat_ofInt_of_mem (by omega) (by omega), i, hi, hin, hout⟩

theorem code2temp_wrapped (hK : Calibration K) {code : BitVec 32} {i : ℕ}
    (hi : segment K (codeThk code) = i) {p : ℤ} (m : ℤ)
    (hp : p = ((codeThk code).toNat - nodes K i) * 500 - m * 2 ^ 32)
    (hlo : -2 ^ 31 ≤ p) (hhi : p < 2 ^ 31) :
    code2temp K code =
      BitVec.ofInt 32 (p.tdiv (nodes K (i + 1) - nodes K i) + nodes actualK i) := by
  have hlt : i < 17 := hi ▸ segment_lt K (codeThk code)
  obtain ⟨hd1, hd2⟩ := hK.step hlt
  rw [code2temp, hi]
  refine interpolate_ofInt ?_ hlo hhi (by omega) (by omega)
  rw [actualK_step hlt, hp, ofInt_sub_mul]

/-- **`code2temp` interpolates without overflow** as long as the code is not far from its
segment. -/
theorem code2temp_eq (hK : Calibration K) (code : BitVec 32)
    (hlo : -4294967 ≤ ((codeThk code).toNat : ℤ) - nodes K (segment K (codeThk code)))
    (hhi : ((codeThk code).toNat : ℤ) - nodes K (segment K (codeThk code)) ≤ 4294967) :
    code2temp K code = BitVec.ofInt 32 (tempAt K (codeThk code).toNat) := by
  have hseg := segment_isSegment hK.rising (codeThk code)
  rw [tempAt, ← line_eq_interp hK.rising _ hseg, line, actualK_step hseg.lt]
  exact code2temp_wrapped hK rfl 0 (by omega) (by omega) (by omega)

/-- What one whole degree of the sensor amounts to at the temperature `t`: how far one gets in the
table from what the sensor takes `t` for, a whole degree down. -/
def wholeDegree (thermalK : Table) (t : BitVec 32) : ℤ :=
  t.toNat - tempAt thermalK (thkAt thermalK t.toNat - 100)

/-- Codes rise with the temperatures, and there and back again does not lose more than one whole
degree of the sensor. -/
structure Faithful (thermalK : Table) : Prop where
  monotone : ∀ t u, InRange t → InRange u → t ≤ u → temp2code thermalK t ≤ temp2code thermalK u
  close : ∀ t, InRange t →
    (((code2temp thermalK (temp2code thermalK t)).toNat - t.toNat : ℤ).natAbs : ℤ) ≤
      wholeDegree thermalK t

/-- A table whose codes can be read back: no entry is below 0 degrees, none has a code that does not
fit or that has the sign bit, and the whole degree below the first entry is not below zero. -/
def Fits (thermalK : Table) : Prop :=
  (∀ i < 18, 27315 ≤ (thermalK i).toNat ∧ (thermalK i).toNat < 27315 + 100 * 2 ^ 22 ∧
    ((thermalK i).toNat - 27315) / 100 % 512 < 256) ∧
  ((thermalK 0).toNat - 27315) % 100 * 500 / ((thermalK 1).toNat - (thermalK 0).toNat) ≤ 26815

instance (thermalK : Table) : Decidable (Fits thermalK) :=
  inferInstanceAs (Decidable ((∀ i < 18, _ ∧ _ ∧ _) ∧ _))

/-! ## Tables that fit -/

section Fits

variable (hK : Calibration K)

include hK

theorem tempAt_mono {x y : ℤ} (h : x ≤ y) : tempAt K x ≤ tempAt K y :=
  line_le_line hK.rising rising_actualK (locate_segment _ x 16) (locate_segment _ y 16) h

theorem thkAt_mono {t u : ℤ} (h : t ≤ u) : thkAt K t ≤ thkAt K u :=
  line_le_line rising_actualK hK.rising (locate_segment _ t 16) (locate_segment _ u 16) h

theorem tempAt_thkAt_le {t : BitVec 32} (ht : InRange t) :
    tempAt K (thkAt K t.toNat) ≤ t.toNat := by
  refine line_line_le rising_actualK hK.rising ?_ (locate_segment _ _ 16) (locate_segment _ _ 16)
  rw [nodes_actualK (by omega)]
  have hlo := ht.1
  push_cast
  omega

theorem tempAt_of_le {x : ℤ} (hx : x ≤ nodes K 0) :
    tempAt K x = ((x - nodes K 0) * 500).tdiv (nodes K 1 - nodes K 0) + 26815 := by
  have hrise := hK.rising 0 (by omega)
  have hseg : Segment (nodes K) 17 0 x :=
    ⟨by omega, fun h => absurd h (by omega), fun _ => by simp only [Nat.zero_add] at hrise ⊢; omega⟩
  rw [tempAt, ← line_eq_interp hK.rising _ hseg, line, actualK_step (by omega),
    nodes_actualK (by omega)]
  simp

theorem codeThk_temp2code (hF : Fits K) {t : BitVec 32} (ht : InRange t) :
    27315 ≤ (temp2thk K t).toNat ∧
      (temp2code K t).toNat = ((temp2thk K t).toNat - 27315) / 100 * 1024 ∧
      (codeThk (temp2code K t)).toNat = ((temp2thk K t).toNat - 27315) / 100 * 100 + 27315 := by
  obtain ⟨heq, i, hi, hlo, hhi⟩ := temp2thk_spec hK ht
  obtain ⟨hi0, -, hieven⟩ := hF.1 i (by omega)
  obtain ⟨-, hi1, hieven'⟩ := hF.1 (i + 1) (by omega)
  have hstep := hK i hi
  rw [← heq] at hlo hhi
  simp only [nodes] at hlo hhi
  have hge : 27315 ≤ (temp2thk K t).toNat := by omega
  have hcode := toNat_thkCode _ hge (by omega)
  rw [temp2code_eq]
  refine ⟨hge, hcode, ?_⟩
  -- both ends of the segment are in the same block of 256 degrees, and the sign bit is clear there
  have heven : (thkCode (temp2thk K t)).toNat / 2 ^ 18 % 2 = 0 := by
    rw [hcode]
    omega
  rw [toNat_codeThk_of_even _ heven, hcode]
  omega

theorem tempAt_first_sub (e : ℕ) :
    tempAt K (nodes K 0 - e) = 26815 - (e * 500 / ((K 1).toNat - (K 0).toNat) : ℕ) := by
  have hstep := hK 0 (by omega)
  simp only [Nat.zero_add] at hstep
  have hsub : nodes K 1 - nodes K 0 = ((K 1).toNat - (K 0).toNat : ℕ) := by
    simp only [nodes]
    omega
  have hneg : (nodes K 0 - (e : ℤ) - nodes K 0) * 500 = -((e * 500 : ℕ) : ℤ) := by
    omega
  rw [tempAt_of_le hK (by omega), hsub, hneg, Int.neg_tdiv, ← Int.ofNat_tdiv]
  omega

theorem dist_node_le {i : ℕ} {x : ℤ} (hi : Segment (nodes K) 17 i x) (hlo : nodes K 0 - 100 ≤ x)
    (hhi : x ≤ nodes K 17) : -100 ≤ x - nodes K i ∧ x - nodes K i ≤ 2000 := by
  have hlt := hi.lt
  obtain ⟨-, hstep⟩ := hK.step hlt
  have hup : x ≤ nodes K (i + 1) := by
    by_cases hlast : i + 1 < 17
    · exact hi.upper hlast
    · have heq : i + 1 = 17 := by omega
      rw [heq]
      exact hhi
  rcases Nat.eq_zero_or_pos i with rfl | hpos
  · omega
  · have hlow := hi.lower hpos
    omega

theorem faithful_of_fits (hF : Fits K) : Faithful K := by
  constructor
  · intro t u ht hu htu
    have hmono := thkAt_mono hK (Int.ofNat_le.mpr (BitVec.le_def.mp htu))
    rw [← (temp2thk_spec hK ht).1, ← (temp2thk_spec hK hu).1] at hmono
    have hthk : (temp2thk K t).toNat ≤ (temp2thk K u).toNat := by omega
    rw [BitVec.le_def, (codeThk_temp2code hK hF ht).2.1, (codeThk_temp2code hK hF hu).2.1]
    exact Nat.mul_le_mul_right _ (Nat.div_le_div_right (by omega))
  · intro t ht
    obtain ⟨hge, -, hread⟩ := codeThk_temp2code hK hF ht
    obtain ⟨heq, i, hi, hlo, hhi⟩ := temp2thk_spec hK ht
    -- what is read back is less than a whole degree of the sensor below
    have hlast : nodes K (i + 1) ≤ nodes K 17 := hK.rising.le (by omega) (by omega)
    have hfirst : nodes K 0 ≤ nodes K i := hK.rising.le (by omega) (by omega)
    have hbound : ((codeThk (temp2code K t)).toNat : ℤ) ≤ thkAt K t.toNat ∧
        thkAt K t.toNat - 100 ≤ (codeThk (temp2code K t)).toNat ∧
        nodes K 0 - (((K 0).toNat - 27315) % 100 : ℕ) ≤ (codeThk (temp2code K t)).toNat := by
      have h0 := (hF.1 0 (by omega)).1
      rw [← heq] at hlo ⊢
      simp only [nodes] at hlo hfirst ⊢
      omega
    obtain ⟨hle, hge', hfloor⟩ := hbound
    have hseg := segment_isSegment hK.rising (codeThk (temp2code K t))
    obtain ⟨hnear, hnear'⟩ := dist_node_le hK hseg (by omega) (by omega)
    have hcode := code2temp_eq hK (temp2code K t) (by omega) (by omega)
    have hup := le_trans (tempAt_mono hK hle) (tempAt_thkAt_le hK ht)
    have hdown := tempAt_mono hK hge'
    have hzero := tempAt_mono hK hfloor
    rw [tempAt_first_sub hK] at hzero
    have hpos := hF.2
    have hhigh := ht.2
    have hword := toNat_ofInt_of_mem (a := tempAt K (codeThk (temp2code K t)).toNat) (by omega)
      (by omega)
    rw [hcode, hword, wholeDegree]
    omega

end Fits

/-! ## Tables that do not fit -/

section Nodes

theorem inRange_actualK {i : ℕ} (h : i < 18) : InRange (actualK i) := by
  rw [InRange, toNat_actualK h]
  omega

variable (hK : Calibration K)

include hK

omit hK in
theorem thkAt_actualK (K : Table) {i : ℕ} (h : i < 18) : thkAt K (actualK i).toNat = nodes K i := by
  show thkAt K (nodes actualK i) = nodes K i
  rcases Nat.eq_zero_or_pos i with rfl | hpos
  · have hseg : Segment (nodes actualK) 17 0 (nodes actualK 0) :=
      ⟨by omega, fun hlt => absurd hlt (by omega),
        fun _ => le_of_lt (rising_actualK 0 (by omega))⟩
    rw [thkAt, ← line_eq_interp rising_actualK _ hseg, line_lower]
  · have hprev : i - 1 + 1 = i := by omega
    have hseg : Segment (nodes actualK) 17 (i - 1) (nodes actualK i) :=
      ⟨by omega, fun _ => rising_actualK.lt (by omega) (by omega), fun _ => by rw [hprev]⟩
    have hup := line_upper (rising_actualK (i - 1) (by omega)) (nodes K)
    rw [hprev] at hup
    rw [thkAt, ← line_eq_interp rising_actualK _ hseg, hup]

theorem temp2thk_actualK {i : ℕ} (h : i < 18) : (temp2thk K (actualK i)).toNat = (K i).toNat := by
  have heq := (temp2thk_spec hK (inRange_actualK h)).1
  rw [thkAt_actualK K h] at heq
  simp only [nodes] at heq
  omega

theorem width_le : nodes K 17 - nodes K 0 ≤ 34000 := by
  have hslope : ∀ k < 17, nodes K (k + 1) - nodes K k ≤
      4 * (nodes actualK (k + 1) - nodes actualK k) := fun k hk => by
    rw [actualK_step hk]
    exact (hK.step hk).2
  have hdist := Rising.dist_le hslope (Nat.zero_le 17) (le_refl 17)
  rw [nodes_actualK (by omega), nodes_actualK (by omega)] at hdist
  push_cast at hdist
  omega

theorem wholeDegree_le {t : BitVec 32} (ht : InRange t) : wholeDegree K t ≤ 58500 := by
  obtain ⟨-, i, hi, hlo, -⟩ := temp2thk_spec hK ht
  have hfirst : nodes K 0 ≤ nodes K i := hK.rising.le (by omega) (by omega)
  have hmono := tempAt_mono hK (show nodes K 0 - (100 : ℕ) ≤ thkAt K t.toNat - 100 by omega)
  rw [tempAt_first_sub hK] at hmono
  have hdiv := Nat.div_le_self (100 * 500) ((K 1).toNat - (K 0).toNat)
  have hhi := ht.2
  rw [wholeDegree]
  omega

theorem not_faithful_of_neg {t : BitVec 32} (ht : InRange t) {a : ℤ}
    (hread : code2temp K (temp2code K t) = BitVec.ofInt 32 a) (hneg : a < 0)
    (hlo : -2 ^ 31 ≤ a) : ¬ Faithful K := by
  intro hfaith
  have hclose := hfaith.close t ht
  have hstep := wholeDegree_le hK ht
  have hword : ((BitVec.ofInt 32 a).toNat : ℤ) = 2 ^ 32 + a := by
    rw [BitVec.toNat_ofInt]
    omega
  have hhi := ht.2
  rw [hread, hword] at hclose
  omega

theorem segment_of_above {x : BitVec 32} (hx : nodes K 16 < x.toNat) : segment K x = 16 :=
  (segment_isSegment hK.rising x).unique hK.rising
    ⟨by omega, fun _ => hx, fun hlt => absurd hlt (by omega)⟩

theorem segment_of_below {x : BitVec 32} (hx : (x.toNat : ℤ) ≤ nodes K 0) : segment K x = 0 :=
  (segment_isSegment hK.rising x).unique hK.rising
    ⟨by omega, fun hlt => absurd hlt (by omega), fun _ =>
      le_trans hx (le_of_lt (hK.rising 0 (by omega)))⟩

end Nodes

/-! ### Below 0 degrees -/

section Cold

variable (hK : Calibration K)

include hK

theorem not_faithful_of_crossing (hcold : (K 0).toNat < 27315) (hwarm : 27315 ≤ (K 17).toNat) :
    ¬ Faithful K := by
  intro hfaith
  have hmono := hfaith.monotone (actualK 0) (actualK 17) (inRange_actualK (by omega))
    (inRange_actualK (by omega)) (by decide)
  have hwidth := width_le hK
  simp only [nodes] at hwidth
  have h0 := temp2thk_actualK hK (show 0 < 18 by omega)
  have h17 := temp2thk_actualK hK (show 17 < 18 by omega)
  rw [BitVec.le_def, temp2code_eq, temp2code_eq, toNat_thkCode_of_lt (by omega),
    toNat_thkCode _ (by omega) (by omega), h0, h17] at hmono
  omega

omit hK in
/-- What a temperature below 0 degrees is read back as, from a code with the sign bit: some 41
degrees too warm.  Without the sign bit it is a million degrees. -/
theorem codeThk_cold (thk : BitVec 32) (h : thk.toNat < 27315) :
    ((codeThk (thkCode thk)).toNat ≤ thk.toNat + 4096 ∧
        thk.toNat + 3997 ≤ (codeThk (thkCode thk)).toNat) ∨
      (100686515 ≤ (codeThk (thkCode thk)).toNat ∧ (codeThk (thkCode thk)).toNat ≤ 100690515) := by
  have hcode := toNat_thkCode_of_lt h
  rcases Nat.mod_two_eq_zero_or_one ((thkCode thk).toNat / 2 ^ 18) with heven | hodd
  · right
    rw [toNat_codeThk_of_even _ heven, hcode]
    omega
  · left
    rw [toNat_codeThk_of_odd _ hodd]
    omega

omit hK in
theorem tdiv_of_wrapped {p d : ℤ} (hd : 1 ≤ d) (hd' : d ≤ 2000) (hlo : -1300000000 ≤ p)
    (hhi : p ≤ -1190000000) : -1300000000 ≤ p.tdiv d ∧ p.tdiv d ≤ -500000 := by
  have hself := Int.tdiv_le_self d (show 0 ≤ -p by omega)
  rw [Int.neg_tdiv] at hself
  refine ⟨by omega, ?_⟩
  by_contra hgt
  have hsplit := Int.tdiv_mul_add_tmod (-p) d
  have hrem := Int.tmod_lt_of_pos (-p) (show 0 < d by omega)
  have hmul : (-p).tdiv d * d ≤ 500000 * d := by
    rw [Int.neg_tdiv]
    exact mul_le_mul_of_nonneg_right (by omega) (by omega)
  omega

theorem not_faithful_of_garbage {t : BitVec 32} (ht : InRange t) (hcold : (K 17).toNat < 27315)
    (hlo : 100686515 ≤ (codeThk (temp2code K t)).toNat)
    (hhi : (codeThk (temp2code K t)).toNat ≤ 100690515) : ¬ Faithful K := by
  obtain ⟨hd1, hd2⟩ := hK.step (show 16 < 17 by omega)
  have hlast : nodes K (16 + 1) < 27315 := Int.ofNat_lt.mpr hcold
  have hnonneg : 0 ≤ nodes K 16 := Int.natCast_nonneg _
  have hseg := segment_of_above hK (x := codeThk (temp2code K t)) (by omega)
  have hread := code2temp_wrapped hK hseg
    (p := ((codeThk (temp2code K t)).toNat - nodes K 16) * 500 - 12 * 2 ^ 32) 12 (by omega)
    (by omega) (by omega)
  obtain ⟨hquot, hquot'⟩ := tdiv_of_wrapped hd1 hd2
    (p := ((codeThk (temp2code K t)).toNat - nodes K 16) * 500 - 12 * 2 ^ 32) (by omega)
    (by omega)
  rw [nodes_actualK (by omega)] at hread
  refine not_faithful_of_neg hK ht hread ?_ ?_
  · omega
  · omega

/-- What one whole degree amounts to at the last entry of the table, by the width `d` of the last
segment: a step in it, or through it and down the steepest line there is. -/
theorem wholeDegree_last (d : ℤ) (hd : d = nodes K (16 + 1) - nodes K 16) :
    wholeDegree K (actualK 17) ≤ 500 * (101 - d) ∨
      wholeDegree K (actualK 17) * d < 50000 + d := by
  obtain ⟨hd1, hd2⟩ := hK.step (show 16 < 17 by omega)
  have ht : ((actualK 17).toNat : ℤ) = 35315 := by decide
  rw [wholeDegree, thkAt_actualK K (by omega), ht]
  have hx : nodes K 17 = nodes K (16 + 1) := rfl
  have h16 := nodes_actualK (show 16 < 18 by omega)
  by_cases hin : nodes K 16 < nodes K 17 - 100
  · right
    have hseg : Segment (nodes K) 17 16 (nodes K 17 - 100) :=
      ⟨by omega, fun _ => hin, fun hlt => absurd hlt (by omega)⟩
    have hlow := (line_bounds (hK.rising 16 (by omega)) (nodes actualK) (nodes K 17 - 100)).1
    rw [line_eq_interp hK.rising _ hseg, ← tempAt, actualK_step (by omega), h16, ← hd] at hlow
    have hexp : (35315 - tempAt K (nodes K 17 - 100)) * d =
        500 * d - (tempAt K (nodes K 17 - 100) - (26815 + 500 * (16 : ℕ))) * d := by
      push_cast
      linarith
    rw [hexp]
    have hdist : nodes K 17 - 100 - nodes K 16 = d - 100 := by omega
    rw [hdist] at hlow
    linarith
  · left
    have hslope : ∀ k < 17, nodes actualK (k + 1) - nodes actualK k ≤
        500 * (nodes K (k + 1) - nodes K k) := fun k hk => by
      have hstep := (hK.step hk).1
      rw [actualK_step hk]
      omega
    have hfall := node_sub_line_le hK.rising rising_actualK hslope
      (locate_segment (nodes K) (nodes K 17 - 100) 16) (show 16 ≤ 17 by omega) (by omega)
    rw [← interp, ← tempAt, h16] at hfall
    push_cast at hfall
    omega

theorem not_faithful_of_warmed
    (hlo : (K 17).toNat + 3997 ≤ (codeThk (temp2code K (actualK 17))).toNat)
    (hhi : (codeThk (temp2code K (actualK 17))).toNat ≤ (K 17).toNat + 4096) : ¬ Faithful K := by
  intro hfaith
  obtain ⟨hd1, hd2⟩ := hK.step (show 16 < 17 by omega)
  have hclose := hfaith.close _ (inRange_actualK (show 17 < 18 by omega))
  have ht : ((actualK 17).toNat : ℤ) = 35315 := by decide
  have hlast : nodes K (16 + 1) = (K 17).toNat := rfl
  generalize temp2code K (actualK 17) = code at hlo hhi hclose
  have hseg := segment_of_above hK (x := codeThk code) (by omega)
  have hin : Segment (nodes K) 17 16 (codeThk code).toNat :=
    ⟨by omega, fun _ => by omega, fun hlt => absurd hlt (by omega)⟩
  have hread := code2temp_eq hK code (by rw [hseg]; omega) (by rw [hseg]; omega)
  have hline : line (nodes K) (nodes actualK) 16 (codeThk code).toNat =
      tempAt K (codeThk code).toNat := line_eq_interp hK.rising _ hin
  have hlow := (line_bounds (hK.rising 16 (by omega)) (nodes actualK) (codeThk code).toNat).1
  have hup := (line_bounds (hK.rising 16 (by omega)) (nodes actualK) (codeThk code).toNat).2
  have h16 := nodes_actualK (show 16 < 18 by omega)
  have hstep := wholeDegree_last hK (nodes K (16 + 1) - nodes K 16) rfl
  rw [hline, actualK_step (by omega), h16] at hlow hup
  obtain ⟨u, hu⟩ : ∃ u, u = ((codeThk code).toNat : ℤ) - nodes K 16 := ⟨_, rfl⟩
  rw [← hu] at hlow hup
  have hu1 : nodes K (16 + 1) - nodes K 16 + 3997 ≤ u := by omega
  have hu2 : u ≤ nodes K (16 + 1) - nodes K 16 + 4096 := by omega
  generalize tempAt K (codeThk code).toNat = a at hread hlow hup
  generalize nodes K (16 + 1) - nodes K 16 = d at hd1 hd2 hlow hup hstep hu1 hu2
  have hexp : (a - (26815 + 500 * (16 : ℕ))) * d = (a - 35315) * d + 500 * d := by
    push_cast
    linarith
  rw [hexp] at hlow hup
  -- the reading is above the temperature, by the same 41 degrees through the last segment
  have hfar : 1998500 - d < (a - 35315) * d := by omega
  have hpos : 0 < a - 35315 := by
    by_contra hneg
    have hmul := mul_nonpos_of_nonpos_of_nonneg (show a - 35315 ≤ 0 by omega)
      (show 0 ≤ d by omega)
    omega
  have hself : a - 35315 ≤ (a - 35315) * d := le_mul_of_one_le_right (by omega) hd1
  have hword := toNat_ofInt_of_mem (a := a) (by omega) (by omega)
  rw [hread, hword, ht] at hclose
  have hle : a - 35315 ≤ wholeDegree K (actualK 17) := by omega
  have hmul : (a - 35315) * d ≤ wholeDegree K (actualK 17) * d :=
    mul_le_mul_of_nonneg_right hle (by omega)
  rcases hstep with hsmall | hbig
  · have hd100 : d ≤ 100 := by omega
    have hmul' : wholeDegree K (actualK 17) * d ≤ 500 * (101 - d) * d :=
      mul_le_mul_of_nonneg_right hsmall (by omega)
    nlinarith [sq_nonneg (d - 50)]
  · omega

end Cold

section Warm

variable (hK : Calibration K)

include hK

/-- An entry whose code has the sign bit is read back as a temperature below 0 degrees of the
sensor. -/
theorem not_faithful_of_signBit (hwarm : 27315 ≤ (K 0).toNat) (hlast : (K 17).toNat < 4294967)
    {i : ℕ} (hi : i < 18) (hbit : 256 ≤ ((K i).toNat - 27315) / 100 % 512) : ¬ Faithful K := by
  have hthk := temp2thk_actualK hK hi
  have ht := inRange_actualK hi
  have hnode := thkAt_actualK K hi
  have hle : nodes K i ≤ nodes K 17 := hK.rising.le (by omega) (le_refl 17)
  have hle' : nodes K 0 ≤ nodes K 17 := hK.rising.le (by omega) (le_refl 17)
  have hlast' : nodes K 17 = (K 17).toNat := rfl
  have hfirst : nodes K 0 = (K 0).toNat := rfl
  have hentry : nodes K i = (K i).toNat := rfl
  have hcode := toNat_thkCode (temp2thk K (actualK i)) (by omega) (by omega)
  rw [← temp2code_eq, hthk] at hcode
  generalize actualK i = t at hthk ht hnode hcode
  have hread := toNat_codeThk_of_odd (temp2code K t) (by omega)
  have hbounds := codeThk_bounds (temp2code K t)
  have hcold : (codeThk (temp2code K t)).toNat ≤ 27315 := by omega
  have hseg := segment_of_below hK (x := codeThk (temp2code K t)) (by omega)
  have hvalue := code2temp_eq hK (temp2code K t) (by rw [hseg]; omega) (by rw [hseg]; omega)
  -- the value is in the extension of the first segment, and far below one degree down
  obtain ⟨e, he⟩ : ∃ e : ℕ, ((codeThk (temp2code K t)).toNat : ℤ) = nodes K 0 - e :=
    ⟨(K 0).toNat - (codeThk (temp2code K t)).toNat, by omega⟩
  have hbelow := tempAt_first_sub hK e
  rw [← he] at hbelow
  have hdiv := Nat.div_le_self (e * 500) ((K 1).toNat - (K 0).toNat)
  generalize e * 500 / ((K 1).toNat - (K 0).toNat) = below at hbelow hdiv
  have hslope : ∀ k < 17, nodes K (k + 1) - nodes K k ≤
      4 * (nodes actualK (k + 1) - nodes actualK k) := fun k hk => by
    rw [actualK_step hk]
    exact (hK.step hk).2
  have hstrict := line_lt_line hK.rising rising_actualK hslope
    (locate_segment (nodes K) (codeThk (temp2code K t)).toNat 16)
    (locate_segment (nodes K) (nodes K i - 100) 16) (by omega)
  rw [← interp, ← interp, ← tempAt, ← tempAt, ← hnode] at hstrict
  by_cases hneg : tempAt K (codeThk (temp2code K t)).toNat < 0
  · exact not_faithful_of_neg hK ht hvalue hneg (by omega)
  · intro hfaith
    have hclose := hfaith.close t ht
    have hlo := ht.1
    have hword := toNat_ofInt_of_mem (a := tempAt K (codeThk (temp2code K t)).toNat) (by omega)
      (by omega)
    rw [hvalue, hword, wholeDegree] at hclose
    omega

theorem not_faithful_of_underflow (hwarm : 27315 ≤ (K 0).toNat) (hlast : (K 17).toNat < 4294967)
    (hbit : ((K 0).toNat - 27315) / 100 % 512 < 256)
    (hunder : 26815 < ((K 0).toNat - 27315) % 100 * 500 / ((K 1).toNat - (K 0).toNat)) :
    ¬ Faithful K := by
  have hthk := temp2thk_actualK hK (show 0 < 18 by omega)
  have ht := inRange_actualK (show 0 < 18 by omega)
  have hle : nodes K 0 ≤ nodes K 17 := hK.rising.le (by omega) (le_refl 17)
  have hlast' : nodes K 17 = (K 17).toNat := rfl
  have hfirst : nodes K 0 = (K 0).toNat := rfl
  have hcode := toNat_thkCode (temp2thk K (actualK 0)) (by omega) (by omega)
  rw [← temp2code_eq, hthk] at hcode
  generalize actualK 0 = t at hthk ht hcode
  have hread := toNat_codeThk_of_even (temp2code K t) (by omega)
  have he : ((codeThk (temp2code K t)).toNat : ℤ) =
      nodes K 0 - (((K 0).toNat - 27315) % 100 : ℕ) := by omega
  have hseg := segment_of_below hK (x := codeThk (temp2code K t)) (by omega)
  have hvalue := code2temp_eq hK (temp2code K t) (by rw [hseg]; omega) (by rw [hseg]; omega)
  rw [he, tempAt_first_sub hK] at hvalue
  have hdiv := Nat.div_le_self (((K 0).toNat - 27315) % 100 * 500) ((K 1).toNat - (K 0).toNat)
  exact not_faithful_of_neg hK ht hvalue (by omega) (by omega)

end Warm

/-- **The conversions are faithful exactly for the tables that fit.**  Every table that fits
converts faithfully, and of those whose entries do not make a product of `code2temp` overflow, no
other one. -/
theorem conversion_iff (K : Table) (hK : Calibration K) :
    (Fits K → Faithful K) ∧ ((K 17).toNat < 4294967 → (Faithful K ↔ Fits K)) := by
  refine ⟨faithful_of_fits hK, fun hlast => ⟨fun hfaith => ?_, faithful_of_fits hK⟩⟩
  by_contra hnot
  by_cases hwarm : 27315 ≤ (K 0).toNat
  · by_cases hbits : ∀ i < 18, ((K i).toNat - 27315) / 100 % 512 < 256
    · refine hnot ⟨fun i hi => ?_, ?_⟩
      · have hlo : nodes K 0 ≤ nodes K i := hK.rising.le (Nat.zero_le i) (by omega)
        have hhi : nodes K i ≤ nodes K 17 := hK.rising.le (by omega) (le_refl 17)
        simp only [nodes] at hlo hhi
        exact ⟨by omega, by omega, hbits i hi⟩
      · by_contra hunder
        exact not_faithful_of_underflow hK hwarm hlast (hbits 0 (by omega)) (by omega) hfaith
    · push Not at hbits
      obtain ⟨i, hi, hbit⟩ := hbits
      exact not_faithful_of_signBit hK hwarm hlast hi hbit hfaith
  · by_cases hcross : 27315 ≤ (K 17).toNat
    · exact not_faithful_of_crossing hK (by omega) hcross hfaith
    · have hcold : (K 17).toNat < 27315 := by omega
      have hthk := temp2thk_actualK hK (show 17 < 18 by omega)
      have hread := codeThk_cold (temp2thk K (actualK 17)) (by omega)
      rw [← temp2code_eq, hthk] at hread
      rcases hread with ⟨hhi, hlo⟩ | ⟨hlo, hhi⟩
      · exact not_faithful_of_warmed hK hlo hhi hfaith
      · exact not_faithful_of_garbage hK (inRange_actualK (by omega)) hcold hlo hhi hfaith

/-- A sensor that starts at 0 degrees and is one degree too slow. -/
def slowK : Table := fun i => BitVec.ofNat 32 (27315 + 495 * i)

/-- A sensor that takes 0 degrees for 0 degrees, and so starts five degrees below. -/
def coldK : Table := actualK

theorem conversion_iff_slowK : Calibration slowK ∧ Fits slowK ∧ Faithful slowK := by
  have hK : Calibration slowK := by
    intro i hi
    interval_cases i <;> decide
  have hF : Fits slowK := by decide +kernel
  exact ⟨hK, hF, (conversion_iff slowK hK).1 hF⟩

/-- At five degrees below 0 the code is that of more than 500000 degrees, and at 80 degrees it is
not. -/
theorem not_faithful_coldK : Calibration coldK ∧ ¬ Faithful coldK := by
  have hK : Calibration coldK := by
    intro i hi
    interval_cases i <;> decide
  refine ⟨hK, fun hfaith => ?_⟩
  have hmono := hfaith.monotone 26815#32 35315#32 ⟨by decide, by decide⟩ ⟨by decide, by decide⟩
    (by decide)
  have hfalls : ¬ temp2code coldK 26815#32 ≤ temp2code coldK 35315#32 := by decide +kernel
  exact hfalls hmono

end RealtekIpcam.Thermal
