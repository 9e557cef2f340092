import RealtekIpcam.Thermal.Model

/-!
# The codes of the sensor

A code is read with bit 18 as its sign, and written without one: `temp2code` multiplies the unsigned
number of whole degrees above 0 degrees by 1024.  Here both directions are computed in numbers.
-/

namespace RealtekIpcam.Thermal

/-! ## Reading a code -/

theorem and_signBit_iff (code : BitVec 32) :
    code &&& 0x40000#32 ≠ 0#32 ↔ code.toNat / 2 ^ 18 % 2 = 1 := by
  have hbit : (0x40000#32 : BitVec 32) = BitVec.twoPow 32 18 := by decide
  have htest : code.getLsbD 18 = decide (code.toNat / 2 ^ 18 % 2 = 1) :=
    Nat.testBit_eq_decide_div_mod_eq
  have hne : BitVec.twoPow 32 18 ≠ 0#32 := by decide
  rw [hbit, BitVec.and_twoPow, htest]
  by_cases h : code.toNat / 2 ^ 18 % 2 = 1
  · simp only [h, decide_true, if_true]
    exact iff_of_true hne trivial
  · simp only [h, decide_false, Bool.false_eq_true, if_false]
    exact iff_of_false (fun hc => hc rfl) id

theorem toNat_and_codeMask (v : BitVec 32) : (v &&& 0x3ffff#32).toNat = v.toNat % 2 ^ 18 := by
  rw [BitVec.toNat_and]
  exact Nat.and_two_pow_sub_one_eq_mod v.toNat 18

theorem toNat_codeThk_of_even (code : BitVec 32) (h : code.toNat / 2 ^ 18 % 2 = 0) :
    (codeThk code).toNat = code.toNat / 1024 * 100 + 27315 := by
  have hsign : ¬ code &&& 0x40000#32 ≠ 0#32 := by
    rw [and_signBit_iff, h]
    decide
  have hlt := code.isLt
  rw [codeThk, if_neg hsign]
  simp only [BitVec.toNat_add, BitVec.toNat_mul, BitVec.toNat_udiv, BitVec.toNat_ofNat,
    Nat.reducePow, Nat.reduceMod]
  omega

theorem toNat_codeThk_of_odd (code : BitVec 32) (h : code.toNat / 2 ^ 18 % 2 = 1) :
    (codeThk code).toNat =
      27315 - (2 ^ 18 - code.toNat % 2 ^ 18) % 2 ^ 18 / 1024 * 100 := by
  rw [codeThk, if_pos ((and_signBit_iff code).mpr h)]
  have hm : (~~~((code &&& 0x3ffff#32) - 1#32) &&& 0x3ffff#32).toNat =
      (2 ^ 18 - code.toNat % 2 ^ 18) % 2 ^ 18 := by
    have hlow := toNat_and_codeMask code
    rw [toNat_and_codeMask, BitVec.toNat_not, BitVec.toNat_sub, hlow, BitVec.toNat_ofNat]
    omega
  generalize ~~~((code &&& 0x3ffff#32) - 1#32) &&& 0x3ffff#32 = m at hm ⊢
  have hmlt : m.toNat < 2 ^ 18 := by omega
  have hmin : m ≠ BitVec.intMin 32 := by
    intro heq
    rw [heq] at hmlt
    exact absurd hmlt (by decide)
  have hmsb : m.msb = false := BitVec.msb_eq_false_iff_two_mul_lt.mpr (by omega)
  have hdiv : m.sdiv 1024#32 = m.udiv 1024#32 := by
    have hpos : (1024#32 : BitVec 32).msb = false := by decide
    rw [BitVec.sdiv_eq, hmsb, hpos]
  have hquot : (m.udiv 1024#32).toNat = m.toNat / 1024 := BitVec.toNat_udiv
  simp only [BitVec.zero_sub]
  rw [BitVec.neg_sdiv hmin, hdiv]
  simp only [BitVec.toNat_add, BitVec.toNat_mul, BitVec.toNat_neg, BitVec.toNat_ofNat, hquot,
    Nat.reducePow, Nat.reduceMod]
  omega

theorem codeThk_bounds (code : BitVec 32) :
    1815 ≤ (codeThk code).toNat ∧ (codeThk code).toNat ≤ 419432015 := by
  have hlt := code.isLt
  rcases Nat.mod_two_eq_zero_or_one (code.toNat / 2 ^ 18) with h | h
  · rw [toNat_codeThk_of_even _ h]
    omega
  · rw [toNat_codeThk_of_odd _ h]
    omega

theorem toNat_thkCode (thk : BitVec 32) (h : 27315 ≤ thk.toNat)
    (hlt : thk.toNat < 27315 + 100 * 2 ^ 22) :
    (thkCode thk).toNat = (thk.toNat - 27315) / 100 * 1024 := by
  rw [thkCode]
  simp only [BitVec.toNat_mul, BitVec.toNat_udiv, BitVec.toNat_sub, BitVec.toNat_ofNat,
    Nat.reducePow, Nat.reduceMod]
  omega

theorem toNat_thkCode_of_lt {thk : BitVec 32} (h : thk.toNat < 27315) :
    (thkCode thk).toNat = ((2 ^ 32 + thk.toNat - 27315) / 100 - 41943040) * 1024 := by
  rw [thkCode]
  simp only [BitVec.toNat_mul, BitVec.toNat_udiv, BitVec.toNat_sub, BitVec.toNat_ofNat,
    Nat.reducePow, Nat.reduceMod]
  omega

end RealtekIpcam.Thermal
