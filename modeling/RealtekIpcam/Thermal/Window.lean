import RealtekIpcam.Thermal.TripIndex

/-!
# The window and the temperature

The window is to follow the temperature: down when it is below the trip point `cur_index`, up when
it is above the trip point `cur_index + 1`.  `rts_thermal_irq_handler` compares these trip points,
which are temperatures, with the code that it reads from the sensor.  So it moves as it should
exactly if the code happens to lie on the same side of the two trip points as the temperature that
`code2temp` gives for it (`tracks_iff`).
-/

namespace RealtekIpcam.Thermal

open Runs

/-! ## Following the temperature -/

/-- The trip points rise. -/
def TripTab.Ascending (tab : TripTab) : Prop :=
  ∀ i, i + 1 < tab.points.length → tab.temp i ≤ tab.temp (i + 1)

/-- From the window of `z`, an interrupt with this code leads to the window of `z'` that the
temperature asks for. -/
def Tracks (z : Zone) (code : BitVec 32) (z' : Zone) : Prop :=
  let temp := code2temp z.thermalK code
  let idx := z.curIndex.toNat
  z'.curIndex.toNat =
    if 0 < idx ∧ temp < z.tripTab.temp idx then idx - 1
    else if idx + 2 < z.tripTab.points.length ∧ temp > z.tripTab.temp (idx + 1) then idx + 1
    else idx
  deriving Decidable

/-- The code lies on the same side of the trip points of the window as the temperature it stands
for, as far as there is a window to move to. -/
def SameSide (z : Zone) (code : BitVec 32) : Prop :=
  let temp := code2temp z.thermalK code
  let idx := z.curIndex.toNat
  (0 < idx → (code < z.tripTab.temp idx ↔ temp < z.tripTab.temp idx)) ∧
    (idx + 2 < z.tripTab.points.length →
      (code > z.tripTab.temp (idx + 1) ↔ temp > z.tripTab.temp (idx + 1)))
  deriving Decidable

theorem indexed_of_exec {tab : TripTab} (htab : tab.Parsed) (htwo : 2 ≤ tab.numTrips.toInt)
    {thermalK : Table} {ctLow ctHigh ctIntEn : BitVec 32} {es : List Event} {z : Zone}
    (hrun : exec Zone.step (tab.start thermalK ctLow ctHigh ctIntEn) es = some z) :
    Indexed tab z := by
  refine exec_invariant (C := fun _ _ => True) ?_
    (indexed_start htab thermalK ctLow ctHigh ctIntEn) (Along.of_forall fun _ _ => trivial) hrun
  intro z e z' hz _ hstep
  refine (hz.step htab e hstep).2 ?_
  cases e with
  | initWork => exact Or.inl htwo
  | interrupt flags code => exact Or.inr (Or.inr (Or.inl htwo))
  | thermWork => trivial

theorem toNat_nextIndex {z : Zone} {n : Nat} (hn : z.tripTab.numTrips.toNat = n) (htwo : 2 ≤ n)
    (hlen : z.tripTab.points.length = n) (hmax : n ≤ 12) (hidx : z.curIndex.toNat + 1 < n)
    (code : BitVec 32) :
    (z.nextIndex z.curIndex code).toNat =
      if code < z.tripTab.temp z.curIndex.toNat then z.curIndex.toNat - 1
      else if z.curIndex.toNat + 2 < z.tripTab.points.length ∧
          code > z.tripTab.temp (z.curIndex.toNat + 1) then z.curIndex.toNat + 1
      else z.curIndex.toNat := by
  have hsucc : (z.curIndex + 1).toNat = z.curIndex.toNat + 1 := by
    rw [BitVec.toNat_add]
    have hone : (1 : BitVec 32).toNat = 1 := rfl
    omega
  have hhigher : z.curIndex < z.tripTab.numTrips - 2#32 ↔
      z.curIndex.toNat + 2 < z.tripTab.points.length := by
    rw [hlen]
    bv_omega
  simp only [Zone.nextIndex, hsucc, hhigher]
  by_cases hlow : code < z.tripTab.temp z.curIndex.toNat
  · rw [if_pos hlow, if_pos hlow]
    by_cases hpos : z.curIndex > 0#32
    · rw [if_pos hpos]
      bv_omega
    · rw [if_neg hpos]
      bv_omega
  · rw [if_neg hlow, if_neg hlow]
    by_cases hhigh : code > z.tripTab.temp (z.curIndex.toNat + 1)
    · by_cases hup : z.curIndex.toNat + 2 < z.tripTab.points.length
      · rw [if_pos hhigh, if_pos hup, if_pos ⟨hup, hhigh⟩]
        exact hsucc
      · rw [if_pos hhigh, if_neg hup, if_neg fun hc => hup hc.1]
    · rw [if_neg hhigh, if_neg fun hc => hhigh hc.2]

/-- Two ways to choose the next window lead to the same one exactly if they agree wherever there is
a window to move to. -/
theorem window_eq_iff {idx : Nat} {higher down up down' up' : Prop} [Decidable higher]
    [Decidable down] [Decidable up] [Decidable down'] [Decidable up'] (h : up → ¬ down)
    (h' : up' → ¬ down') :
    ((if down then idx - 1 else if higher ∧ up then idx + 1 else idx) =
      if 0 < idx ∧ down' then idx - 1 else if higher ∧ up' then idx + 1 else idx) ↔
      (0 < idx → (down ↔ down')) ∧ (higher → (up ↔ up')) := by
  constructor
  · intro heq
    refine ⟨fun hpos => ⟨fun hd => ?_, fun hd => ?_⟩, fun hh => ⟨fun hu => ?_, fun hu => ?_⟩⟩ <;>
      grind
  · rintro ⟨hdown, hup⟩
    grind

/-- **The handler follows the temperature exactly if the code is on its side of the trip points.**
This is about every state that the driver reaches with at least three trip points, and every
interrupt of the sensor that is enabled. -/
theorem tracks_iff {dt : DeviceTree} {alloc : Bool} {tab : TripTab}
    (h : rtsThermalParseDt dt alloc = some tab) (hthree : 3 ≤ tab.points.length)
    (hasc : tab.Ascending) {thermalK : Table} {ctLow ctHigh ctIntEn : BitVec 32}
    {es : List Event} {z : Zone}
    (hrun : exec Zone.step (tab.start thermalK ctLow ctHigh ctIntEn) es = some z)
    {flags : BitVec 32} (hflags : flags ≠ 0#32) (hen : z.ctIntEn ≠ 0#32) (code : BitVec 32) :
    Tracks z code (z.rtsThermalIrqHandler flags code) ↔ SameSide z code := by
  have htab := parsed_of_parseDt h
  have htwo : 2 ≤ tab.numTrips.toInt := by
    rcases lt_trichotomy tab.numTrips.toInt 0 with hneg | hzero | hpos
    · simp [htab.neg hneg] at hthree
    · have h0 : tab.numTrips = 0#32 := BitVec.toInt_inj.mp (by simp [hzero])
      simp [htab.zero h0] at hthree
    · have hlen := htab.pos hpos
      omega
  obtain ⟨hn, hle, hmax⟩ := htab.toNat_numTrips htwo
  have hz := indexed_of_exec htab htwo hrun
  have hsame := hz.tripTab
  have hidx := hz.inside htwo
  have hlt : z.curIndex < z.tripTab.numTrips - 1#32 := by
    rw [hsame]
    bv_omega
  have hcur := (irqHandler_handled code hflags hen hlt).2.1
  rw [Tracks, hcur, toNat_nextIndex (by rw [hsame, hn]) hle (by rw [hsame]) hmax hidx]
  have hle := hasc _ hidx
  rw [← hsame] at hle
  exact window_eq_iff (fun hhigh hlow => by bv_omega) (fun hhigh hlow => by bv_omega)

/-- The calibration of a sensor that needs none. -/
def plainK : Table := actualK

theorem tracks_iff_plainK :
    ∃ tab z, rtsThermalParseDt threeTrips true = some tab ∧
      exec Zone.step (tab.start plainK 0#32 0#32 0#32) [.initWork] = some z ∧
      Tracks z 90000#32 (z.rtsThermalIrqHandler 1#32 90000#32) := by
  have hparse : rtsThermalParseDt threeTrips true =
      some ⟨[⟨27315#32, .hot⟩, ⟨34815#32, .hot⟩, ⟨35315#32, .hot⟩], 3#32⟩ := by decide +kernel
  have hasc : TripTab.Ascending
      ⟨[⟨27315#32, .hot⟩, ⟨34815#32, .hot⟩, ⟨35315#32, .hot⟩], 3#32⟩ := by
    intro i hi
    have hi' : i + 1 < 3 := hi
    obtain rfl | rfl : i = 0 ∨ i = 1 := by omega
    · decide
    · decide
  obtain ⟨z, hrun⟩ : ∃ z, exec Zone.step
      (TripTab.start ⟨[⟨27315#32, .hot⟩, ⟨34815#32, .hot⟩, ⟨35315#32, .hot⟩], 3#32⟩ plainK 0#32 0#32
        0#32) [.initWork] = some z := ⟨_, rfl⟩
  refine ⟨_, z, hparse, hrun, (tracks_iff hparse (by decide) hasc hrun (by decide) ?_ _).mpr ?_⟩
  all_goals obtain rfl := Option.some.inj hrun
  · decide +kernel
  · decide +kernel

/-- At 75 degrees and more the window of 0 to 75 degrees is left upwards; but it is left at 35
degrees already, whose code 35840 is above 34815. -/
theorem not_tracks_plainK :
    ∃ tab z, rtsThermalParseDt threeTrips true = some tab ∧
      exec Zone.step (tab.start plainK 0#32 0#32 0#32) [.initWork] = some z ∧
      (∀ i < 17, plainK i < plainK (i + 1)) ∧
      ¬ Tracks z 35840#32 (z.rtsThermalIrqHandler 1#32 35840#32) := by
  refine ⟨⟨[⟨27315#32, .hot⟩, ⟨34815#32, .hot⟩, ⟨35315#32, .hot⟩], 3#32⟩, _, by decide +kernel, rfl,
    fun i hi => ?_, by decide +kernel⟩
  interval_cases i <;> decide

end RealtekIpcam.Thermal
