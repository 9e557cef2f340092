import RealtekIpcam.Thermal.Code
import RealtekIpcam.Thermal.TripIndex

/-!
# The divisors of the interpolations

`temp2code` divides by the differences of `actual_k`, which are all 500.  `code2temp` divides by the
differences of `thermal_k`, which come from the device tree as they are, or are zero when the
property is missing or too short, since nobody looks at the result of reading it.

The segment that a search finds between two entries is never flat.  But a temperature that is not
above the first entry is put into the first segment, and one above all but the last entry into the
last, and these two may be flat; `divisors_iff` says when a code gets there.
-/

namespace RealtekIpcam.Thermal

/-! ## The two divisors -/

/-- The divisor `x2 - x1` of `interpolate`. -/
def divisor (src : Table) (i : Nat) : BitVec 32 := src (i + 1) - src i

/-- `temp2code` does not divide by zero for this temperature, and `code2temp` not for this code. -/
def DividesWell (thermalK : Table) (code actk : BitVec 32) : Prop :=
  divisor actualK (segment actualK actk) ≠ 0#32 ∧
    divisor thermalK (segment thermalK (codeThk code)) ≠ 0#32
  deriving Decidable

theorem divisor_eq_zero {src : Table} {i : Nat} : divisor src i = 0#32 ↔ src i = src (i + 1) := by
  rw [divisor]
  constructor
  · intro h
    bv_omega
  · intro h
    rw [h, BitVec.sub_self]

theorem divisor_actualK_ne_zero (v : BitVec 32) : divisor actualK (segment actualK v) ≠ 0#32 := by
  have hseg := segment_lt actualK v
  intro hzero
  have heq := congrArg BitVec.toNat (divisor_eq_zero.mp hzero)
  rw [toNat_actualK (by omega), toNat_actualK (by omega)] at heq
  omega

/-- **Where a search ends up in a flat segment**: in the first, with a value not above the table, or
in the last, with a value above all but the last entry. -/
theorem divisor_segment_eq_zero_iff (tbl : Table) (v : BitVec 32) :
    divisor tbl (segment tbl v) = 0#32 ↔
      (tbl 0 = tbl 1 ∧ v ≤ tbl 0) ∨ (tbl 16 = tbl 17 ∧ ∀ m ≤ 16, tbl m < v) := by
  rw [divisor_eq_zero]
  rcases segment_cases tbl v with ⟨hle, hseg⟩ | ⟨i, hi, hall, hle, hseg⟩ | ⟨hall, hseg⟩
  · rw [hseg]
    refine ⟨fun heq => Or.inl ⟨heq, hle⟩, ?_⟩
    rintro (⟨heq, -⟩ | ⟨-, hall⟩)
    · exact heq
    · exact absurd (hall 0 (Nat.zero_le 16)) (BitVec.not_lt.mpr hle)
  · rw [hseg]
    refine ⟨fun heq => ?_, ?_⟩
    · rw [← heq] at hle
      exact absurd (hall i (le_refl i)) (BitVec.not_lt.mpr hle)
    · rintro (⟨-, hv⟩ | ⟨-, hall'⟩)
      · exact absurd (hall 0 (Nat.zero_le i)) (BitVec.not_lt.mpr hv)
      · exact absurd (hall' (i + 1) (by omega)) (BitVec.not_lt.mpr hle)
  · rw [hseg]
    refine ⟨fun heq => Or.inr ⟨heq, hall⟩, ?_⟩
    rintro (⟨-, hv⟩ | ⟨heq, -⟩)
    · exact absurd (hall 0 (Nat.zero_le 16)) (BitVec.not_lt.mpr hv)
    · exact heq

/-- A table whose flat ends no code can reach. -/
def NoFlatEnd (thermalK : Table) : Prop :=
  (thermalK 0 = thermalK 1 → thermalK 0 < 1815#32) ∧
    (thermalK 16 = thermalK 17 → ∃ m ≤ 16, 419432015#32 ≤ thermalK m)

theorem codeThk_extremes : codeThk 0x40001#32 = 1815#32 ∧ codeThk 0xfffbffff#32 = 419432015#32 := by
  decide

/-- **No code makes `code2temp` divide by zero exactly if no code reaches a flat end.** -/
theorem forall_divisor_iff (thermalK : Table) :
    (∀ code, divisor thermalK (segment thermalK (codeThk code)) ≠ 0#32) ↔ NoFlatEnd thermalK := by
  constructor
  · intro h
    constructor
    · intro hflat
      have hcold := h 0x40001#32
      rw [Ne, divisor_segment_eq_zero_iff, codeThk_extremes.1] at hcold
      exact BitVec.not_le.mp fun hle => hcold (Or.inl ⟨hflat, hle⟩)
    · intro hflat
      have hhot := h 0xfffbffff#32
      rw [Ne, divisor_segment_eq_zero_iff, codeThk_extremes.2] at hhot
      by_contra hnone
      refine hhot (Or.inr ⟨hflat, fun m hm => BitVec.not_le.mp fun hle => ?_⟩)
      exact hnone ⟨m, hm, hle⟩
  · rintro ⟨hfirst, hlast⟩ code hzero
    obtain ⟨hlo, hhi⟩ := codeThk_bounds code
    rcases (divisor_segment_eq_zero_iff _ _).mp hzero with ⟨hflat, hle⟩ | ⟨hflat, hall⟩
    · have hlt := hfirst hflat
      bv_omega
    · obtain ⟨m, hm, hge⟩ := hlast hflat
      have hlt := hall m hm
      bv_omega

/-! ## The device tree -/

theorem thermalK_of_probe {dt : DeviceTree} {o : ProbeOutcomes} {ctLow ctHigh ctIntEn : BitVec 32}
    {z : Zone} (h : rtsThermalProbe dt o ctLow ctHigh ctIntEn = some z) :
    z.thermalK = readThermalK dt := by
  rw [rtsThermalProbe] at h
  split at h
  · cases h
  · split at h
    · cases h
    · split at h
      · cases h
      · split at h
        · cases h
        · rw [Option.some_inj] at h
          rw [← h]

/-- **When the driver divides by zero.**  With any device tree that it probes with, for one code and
one temperature: exactly if the table is flat at an end and the code stands for a temperature beyond
it.  And for all of them: exactly if the table is flat at an end that some code can reach. -/
theorem divisors_iff {dt : DeviceTree} {o : ProbeOutcomes} {ctLow ctHigh ctIntEn : BitVec 32}
    {z : Zone} (h : rtsThermalProbe dt o ctLow ctHigh ctIntEn = some z) :
    (∀ code actk, DividesWell z.thermalK code actk ↔
        ¬ ((readThermalK dt 0 = readThermalK dt 1 ∧ codeThk code ≤ readThermalK dt 0) ∨
          (readThermalK dt 16 = readThermalK dt 17 ∧
            ∀ m ≤ 16, readThermalK dt m < codeThk code))) ∧
      ((∀ code actk, DividesWell z.thermalK code actk) ↔ NoFlatEnd (readThermalK dt)) := by
  rw [thermalK_of_probe h]
  have hone : ∀ code actk, DividesWell (readThermalK dt) code actk ↔
      divisor (readThermalK dt) (segment (readThermalK dt) (codeThk code)) ≠ 0#32 :=
    fun code actk => and_iff_right (divisor_actualK_ne_zero actk)
  constructor
  · intro code actk
    rw [hone, Ne, divisor_segment_eq_zero_iff]
  · rw [← forall_divisor_iff]
    exact ⟨fun hall code => (hone code 0#32).mp (hall code 0#32),
      fun hall code actk => (hone code actk).mpr (hall code)⟩

/-- A device tree with a table. -/
def calibrated : DeviceTree := { noTrips with thermalK := some actualKList }

/-- A device tree without a table. -/
def uncalibrated : DeviceTree := noTrips

/-- Everything else goes well. -/
def allGood : ProbeOutcomes := ⟨true, true, true, true, true⟩

theorem divisors_iff_calibrated :
    ∃ z, rtsThermalProbe calibrated allGood 0#32 0#32 0#32 = some z ∧
      ∀ code actk, DividesWell z.thermalK code actk := by
  obtain ⟨z, hprobe⟩ : ∃ z, rtsThermalProbe calibrated allGood 0#32 0#32 0#32 = some z := ⟨_, rfl⟩
  refine ⟨z, hprobe, (divisors_iff hprobe).2.mpr ⟨fun hflat => ?_, fun hflat => ?_⟩⟩
  · exact absurd hflat (by decide)
  · exact absurd hflat (by decide)

/-- Without `thermal_k` every code makes the driver divide by zero. -/
theorem not_dividesWell_uncalibrated :
    ∃ z, rtsThermalProbe uncalibrated allGood 0#32 0#32 0#32 = some z ∧
      ¬ DividesWell z.thermalK 0x1000#32 30315#32 :=
  ⟨_, rfl, by decide +kernel⟩

end RealtekIpcam.Thermal
