import RealtekIpcam.Lib.Runs
import RealtekIpcam.Thermal.Model

/-!
# The trip points that the window uses

The driver reads the trip points `cur_index` and `cur_index + 1`.  `num_trips` is signed and
`cur_index` is not, so that `num_trips - 1` and `num_trips - 2` are large where they should be
negative, and what the device tree may ask for falls into four cases.

From two trip points on the index stays below the last one.  Without trip points there are the two
of the default, but `num_trips` stays 0, and a code above the second one moves the index on to a
third.  With one trip point, or with a negative number of them, there is no second point to begin
with.  `addresses_run_iff` says of every run which of its events read a trip point that has not been
set.
-/

namespace RealtekIpcam.Thermal

open Runs

/-! ## The trip points of a device tree -/

/-- The trip points `idx` and `idx + 1` are in the array and have been set. -/
def TripTab.Addresses (tab : TripTab) (idx : BitVec 32) : Prop :=
  idx.toNat + 1 < tab.points.length ∧ idx.toNat + 1 < thermalMaxTrips

/-- What `rts_thermal_parse_dt` has set, by the number of trip points. -/
structure TripTab.Parsed (tab : TripTab) : Prop where
  max : tab.numTrips.toInt ≤ 12
  zero : tab.numTrips = 0#32 → tab.points = [⟨27315#32, .hot⟩, ⟨35315#32, .hot⟩]
  pos : 0 < tab.numTrips.toInt → tab.points.length = tab.numTrips.toInt.toNat
  neg : tab.numTrips.toInt < 0 → tab.points = []

theorem length_readTrips {dt : DeviceTree} {n : Nat} {points : List TripPoint}
    (h : readTrips dt n = some points) : points.length = n := by
  induction n generalizing points with
  | zero =>
    rw [readTrips, Option.some_inj] at h
    rw [← h]
    rfl
  | succ n ih =>
    rw [readTrips] at h
    cases hrest : readTrips dt n with
    | none => simp [hrest] at h
    | some rest =>
      cases htemp : dt.tripTemp n with
      | none => simp [hrest, htemp] at h
      | some tmpData =>
        simp only [hrest, htemp, Option.some_inj] at h
        rw [← h, List.length_append, ih hrest]
        rfl

theorem parsed_of_parseDt {dt : DeviceTree} {alloc : Bool} {tab : TripTab}
    (h : rtsThermalParseDt dt alloc = some tab) : tab.Parsed := by
  cases alloc with
  | false => simp [rtsThermalParseDt] at h
  | true =>
    cases hnum : dt.numTrips with
    | none => simp [rtsThermalParseDt, hnum] at h
    | some n =>
      simp only [rtsThermalParseDt, hnum, Bool.not_true, Bool.false_eq_true, if_false] at h
      by_cases hmax : n.toInt > thermalMaxTrips
      · simp [hmax] at h
      · rw [if_neg hmax] at h
        have hle : n.toInt ≤ 12 := not_lt.mp hmax
        by_cases hzero : n = 0#32
        · rw [if_pos hzero, Option.some_inj] at h
          subst h
          subst hzero
          exact ⟨hle, fun _ => rfl, fun hpos => absurd hpos (by decide),
            fun hneg => absurd hneg (by decide)⟩
        · rw [if_neg hzero] at h
          obtain ⟨points, hpoints, rfl⟩ := Option.map_eq_some_iff.mp h
          have hlen := length_readTrips hpoints
          refine ⟨hle, fun h0 => absurd h0 hzero, fun _ => hlen, fun hneg => ?_⟩
          refine List.length_eq_zero_iff.mp ?_
          show points.length = 0
          have hneg' : n.toInt < 0 := hneg
          omega

section Cases

variable {tab : TripTab}

theorem TripTab.Parsed.toNat_numTrips (h : tab.Parsed) (htwo : 2 ≤ tab.numTrips.toInt) :
    tab.numTrips.toNat = tab.points.length ∧ 2 ≤ tab.points.length ∧ tab.points.length ≤ 12 := by
  have hmax := h.max
  have hlen := h.pos (by omega)
  have hint : tab.numTrips.toInt = tab.numTrips.toNat := by
    rw [BitVec.toInt_eq_toNat_cond] at htwo ⊢
    split at htwo
    · rw [if_pos ‹_›]
    · have hlt := tab.numTrips.isLt
      omega
  omega

theorem TripTab.Parsed.addresses_zero_iff (h : tab.Parsed) :
    tab.Addresses 0#32 ↔ 2 ≤ tab.numTrips.toInt ∨ tab.numTrips = 0#32 := by
  have hmax := h.max
  simp only [TripTab.Addresses, thermalMaxTrips, BitVec.toNat_zero]
  rcases lt_trichotomy tab.numTrips.toInt 0 with hneg | hzero | hpos
  · have hne : tab.numTrips ≠ 0#32 := fun h0 => by simp [h0] at hneg
    simp only [h.neg hneg, List.length_nil, hne, or_false]
    omega
  · have h0 : tab.numTrips = 0#32 := BitVec.toInt_inj.mp (by simp [hzero])
    simp [h.zero h0, h0]
  · have hlen := h.pos hpos
    have hne : tab.numTrips ≠ 0#32 := fun h0 => by simp [h0] at hpos
    simp only [hne, or_false]
    omega

theorem TripTab.Parsed.default_addresses_iff (h : tab.Parsed) (hzero : tab.numTrips = 0#32)
    {idx : BitVec 32} : tab.Addresses idx ↔ idx = 0#32 := by
  simp only [TripTab.Addresses, h.zero hzero, thermalMaxTrips, List.length_cons, List.length_nil]
  constructor
  · intro hlt
    bv_omega
  · rintro rfl
    decide

end Cases

/-! ## One event -/

/-- The event reads trip points that have been set: the window is set up for a table of two points
at least, and an interrupt that is handled finds such a table, or a code that does not leave the
default towards the top, or a single trip point, for which the handler does nothing. -/
def Within (tab : TripTab) (z : Zone) : Event → Prop
  | .initWork => 2 ≤ tab.numTrips.toInt ∨ tab.numTrips = 0#32
  | .interrupt flags code =>
    flags = 0#32 ∨ z.ctIntEn = 0#32 ∨ 2 ≤ tab.numTrips.toInt ∨ tab.numTrips = 1#32 ∨
      (tab.numTrips = 0#32 ∧ code ≤ 35315#32)
  | .thermWork => True

/-- The state as long as every trip point that was read had been set. -/
structure Indexed (tab : TripTab) (z : Zone) : Prop where
  tripTab : z.tripTab = tab
  uses : ∀ idx ∈ z.uses, tab.Addresses idx
  inside : 2 ≤ tab.numTrips.toInt → z.curIndex.toNat + 1 < tab.points.length
  outside : ¬ 2 ≤ tab.numTrips.toInt → z.curIndex = 0#32

section Step

variable {tab : TripTab} {z z' : Zone}

@[simp] theorem Zone.uses_updateConfig (z : Zone) (idx : BitVec 32) :
    (z.rtsThermalUpdateConfig idx).uses = z.uses ++ [idx] := rfl

theorem nextIndex_lt {numTrips idx code low high : BitVec 32} {n : Nat}
    (hn : numTrips.toNat = n) (htwo : 2 ≤ n) (hmax : n ≤ 12) (hidx : idx.toNat + 1 < n) :
    (if code < low then if idx > 0#32 then idx - 1#32 else idx
      else if code > high then if idx < numTrips - 2#32 then idx + 1#32 else idx
      else idx).toNat + 1 < n := by
  by_cases hlow : code < low
  · rw [if_pos hlow]
    by_cases hpos : idx > 0#32
    · rw [if_pos hpos]
      bv_omega
    · rw [if_neg hpos]
      exact hidx
  · rw [if_neg hlow]
    by_cases hhigh : code > high
    · rw [if_pos hhigh]
      by_cases hlt : idx < numTrips - 2#32
      · rw [if_pos hlt]
        bv_omega
      · rw [if_neg hlt]
        exact hidx
    · rw [if_neg hhigh]
      exact hidx

/-- Without trip points in the device tree, the window moves on exactly for a code above the second
point of the default. -/
theorem nextIndex_default (htab : tab.Parsed) (hz : z.tripTab = tab)
    (hzero : tab.numTrips = 0#32) (code : BitVec 32) :
    z.nextIndex 0#32 code = if code ≤ 35315#32 then 0#32 else 1#32 := by
  have hpoints := htab.zero hzero
  have hlow : z.tripTab.temp (0#32).toNat = 27315#32 := by
    simp [TripTab.temp, hz, hpoints]
  have hhigh : z.tripTab.temp (0#32 + 1).toNat = 35315#32 := by
    simp [TripTab.temp, hz, hpoints]
  have hnum : z.tripTab.numTrips = 0#32 := by rw [hz, hzero]
  have hstays : ¬ (0#32 > 0#32) := by decide
  have hmoves : 0#32 < 0#32 - 2#32 := by decide
  simp only [Zone.nextIndex, hlow, hhigh, hnum, if_neg hstays, if_pos hmoves]
  by_cases hcold : code < 27315#32
  · have hle : code ≤ 35315#32 := by bv_omega
    rw [if_pos hcold, if_pos hle]
  · rw [if_neg hcold]
    by_cases hle : code ≤ 35315#32
    · have hnot : ¬ code > 35315#32 := BitVec.not_lt.mpr hle
      rw [if_neg hnot, if_pos hle]
    · rw [if_pos (BitVec.not_le.mp hle), if_neg hle]
      rfl

theorem irqHandler_handled {flags : BitVec 32} (code : BitVec 32) (hflags : flags ≠ 0#32)
    (hen : z.ctIntEn ≠ 0#32) (hlt : z.curIndex < z.tripTab.numTrips - 1#32) :
    (z.rtsThermalIrqHandler flags code).uses =
        z.uses ++ [z.curIndex, z.nextIndex z.curIndex code] ∧
      (z.rtsThermalIrqHandler flags code).curIndex = z.nextIndex z.curIndex code ∧
      (z.rtsThermalIrqHandler flags code).tripTab = z.tripTab := by
  simp only [Zone.rtsThermalIrqHandler, if_neg hflags, if_neg hen, if_pos hlt]
  refine ⟨?_, rfl, rfl⟩
  rw [Zone.uses_updateConfig, Zone.use, List.append_assoc]
  rfl

theorem irqHandler_skipped (z : Zone) {flags : BitVec 32} (code : BitVec 32)
    (h : flags = 0#32 ∨ z.ctIntEn = 0#32 ∨ ¬ z.curIndex < z.tripTab.numTrips - 1#32) :
    (z.rtsThermalIrqHandler flags code).uses = z.uses ∧
      (z.rtsThermalIrqHandler flags code).curIndex = z.curIndex ∧
      (z.rtsThermalIrqHandler flags code).tripTab = z.tripTab := by
  by_cases hflags : flags = 0#32
  · simp [Zone.rtsThermalIrqHandler, hflags]
  · by_cases hen : z.ctIntEn = 0#32
    · simp [Zone.rtsThermalIrqHandler, hen]
    · have hlt : ¬ z.curIndex < z.tripTab.numTrips - 1#32 := by
        rcases h with h | h | h
        · exact absurd h hflags
        · exact absurd h hen
        · exact h
      simp [Zone.rtsThermalIrqHandler, hflags, hen, hlt]

theorem forall_uses_append {uses more : List (BitVec 32)} (h : ∀ idx ∈ uses, tab.Addresses idx) :
    (∀ idx ∈ uses ++ more, tab.Addresses idx) ↔ ∀ idx ∈ more, tab.Addresses idx := by
  simp only [List.mem_append]
  exact ⟨fun ha idx hidx => ha idx (Or.inr hidx), fun hm idx hidx => hidx.elim (h idx) (hm idx)⟩

theorem Indexed.interrupt_skipped (h : Indexed tab z) {flags : BitVec 32} (code : BitVec 32)
    (hs : flags = 0#32 ∨ z.ctIntEn = 0#32 ∨ ¬ z.curIndex < z.tripTab.numTrips - 1#32) :
    Indexed tab (z.rtsThermalIrqHandler flags code) := by
  obtain ⟨huses, hcur, hsame⟩ := irqHandler_skipped z code hs
  refine ⟨hsame.trans h.tripTab, ?_, hcur ▸ h.inside, hcur ▸ h.outside⟩
  rw [huses]
  exact h.uses

theorem Indexed.interrupt_of_two_le (htab : tab.Parsed) (h : Indexed tab z) {flags : BitVec 32}
    (code : BitVec 32) (hflags : flags ≠ 0#32) (hen : z.ctIntEn ≠ 0#32)
    (htwo : 2 ≤ tab.numTrips.toInt) : Indexed tab (z.rtsThermalIrqHandler flags code) := by
  obtain ⟨hn, hle, hmax⟩ := htab.toNat_numTrips htwo
  have hin := h.inside htwo
  have hlt : z.curIndex < z.tripTab.numTrips - 1#32 := by
    rw [h.tripTab]
    bv_omega
  obtain ⟨huses, hcur, hsame⟩ := irqHandler_handled code hflags hen hlt
  have hnext : (z.nextIndex z.curIndex code).toNat + 1 < tab.points.length :=
    nextIndex_lt (by rw [h.tripTab, hn]) hle hmax hin
  refine ⟨hsame.trans h.tripTab, ?_, fun _ => hcur ▸ hnext, fun hn => absurd htwo hn⟩
  rw [huses, forall_uses_append h.uses]
  intro idx hidx
  rcases List.mem_pair.mp hidx with rfl | rfl
  · exact ⟨hin, lt_of_lt_of_le hin hmax⟩
  · exact ⟨hnext, lt_of_lt_of_le hnext hmax⟩

theorem Indexed.interrupt_default (htab : tab.Parsed) (h : Indexed tab z) {flags : BitVec 32}
    (code : BitVec 32) (hflags : flags ≠ 0#32) (hen : z.ctIntEn ≠ 0#32)
    (hlt : z.curIndex < z.tripTab.numTrips - 1#32) (hzero : tab.numTrips = 0#32) :
    ((∀ idx ∈ (z.rtsThermalIrqHandler flags code).uses, tab.Addresses idx) ↔ code ≤ 35315#32) ∧
      (code ≤ 35315#32 → Indexed tab (z.rtsThermalIrqHandler flags code)) := by
  have htwo : ¬ 2 ≤ tab.numTrips.toInt := by
    rw [hzero]
    decide
  obtain ⟨huses, hcur, hsame⟩ := irqHandler_handled code hflags hen hlt
  rw [h.outside htwo, nextIndex_default htab h.tripTab hzero code] at huses hcur
  have hiff : (∀ idx ∈ (z.rtsThermalIrqHandler flags code).uses, tab.Addresses idx) ↔
      code ≤ 35315#32 := by
    rw [huses, forall_uses_append h.uses]
    simp only [List.mem_cons, List.not_mem_nil, or_false, forall_eq_or_imp, forall_eq,
      htab.default_addresses_iff hzero, true_and]
    by_cases hle : code ≤ 35315#32
    · rw [if_pos hle]
      exact iff_of_true rfl hle
    · rw [if_neg hle]
      exact iff_of_false (by decide) hle
  refine ⟨hiff, fun hle => ⟨hsame.trans h.tripTab, hiff.mpr hle, fun hn => absurd hn htwo,
    fun _ => ?_⟩⟩
  rw [hcur, if_pos hle]

/-- The interrupt uses trip points that have been set just when it is within them. -/
theorem Indexed.interrupt (htab : tab.Parsed) (h : Indexed tab z) (flags code : BitVec 32) :
    ((∀ idx ∈ (z.rtsThermalIrqHandler flags code).uses, tab.Addresses idx) ↔
        Within tab z (.interrupt flags code)) ∧
      (Within tab z (.interrupt flags code) → Indexed tab (z.rtsThermalIrqHandler flags code)) := by
  by_cases hflags : flags = 0#32
  · have hnext := h.interrupt_skipped code (Or.inl hflags)
    exact ⟨iff_of_true hnext.uses (Or.inl hflags), fun _ => hnext⟩
  by_cases hen : z.ctIntEn = 0#32
  · have hnext : Indexed tab (z.rtsThermalIrqHandler flags code) :=
      h.interrupt_skipped code (Or.inr (Or.inl hen))
    exact ⟨iff_of_true hnext.uses (Or.inr (Or.inl hen)), fun _ => hnext⟩
  by_cases htwo : 2 ≤ tab.numTrips.toInt
  · have hnext := h.interrupt_of_two_le htab code hflags hen htwo
    exact ⟨iff_of_true hnext.uses (Or.inr (Or.inr (Or.inl htwo))), fun _ => hnext⟩
  have hcur := h.outside htwo
  by_cases hone : tab.numTrips = 1#32
  · -- a single trip point: the index is not below `num_trips - 1`
    have hlt : ¬ z.curIndex < z.tripTab.numTrips - 1#32 := by
      rw [hcur, h.tripTab, hone]
      decide
    have hnext : Indexed tab (z.rtsThermalIrqHandler flags code) :=
      h.interrupt_skipped code (Or.inr (Or.inr hlt))
    exact ⟨iff_of_true hnext.uses (Or.inr (Or.inr (Or.inr (Or.inl hone)))), fun _ => hnext⟩
  have hlt : z.curIndex < z.tripTab.numTrips - 1#32 := by
    rw [hcur, h.tripTab]
    have hne : tab.numTrips - 1#32 ≠ 0#32 := fun heq => hone (by bv_omega)
    bv_omega
  by_cases hzero : tab.numTrips = 0#32
  · have hwithin : Within tab z (.interrupt flags code) ↔ code ≤ 35315#32 := by
      simp [Within, hflags, hen, hzero]
    rw [hwithin]
    exact h.interrupt_default htab code hflags hen hlt hzero
  · -- a negative number: nothing is set
    have hwithin : ¬ Within tab z (.interrupt flags code) := by
      simp [Within, hflags, hen, htwo, hone, hzero]
    have hnone : ¬ tab.Addresses 0#32 := fun ha =>
      (htab.addresses_zero_iff.mp ha).elim htwo hzero
    obtain ⟨huses, -, -⟩ := irqHandler_handled code hflags hen hlt
    rw [huses, forall_uses_append h.uses, hcur]
    exact ⟨iff_of_false (fun ha => hnone (ha 0#32 List.mem_cons_self)) hwithin,
      fun hc => absurd hc hwithin⟩

/-- **One event** uses trip points that are set exactly if it is `Within`. -/
theorem Indexed.step (htab : tab.Parsed) (h : Indexed tab z) (e : Event)
    (hstep : z.step e = some z') :
    ((∀ idx ∈ z'.uses, tab.Addresses idx) ↔ Within tab z e) ∧
      (Within tab z e → Indexed tab z') := by
  cases e with
  | interrupt flags code =>
    rw [Zone.step, Option.some_inj] at hstep
    exact hstep ▸ h.interrupt htab flags code
  | thermWork =>
    rw [Zone.step, Option.some_inj] at hstep
    subst hstep
    exact ⟨iff_of_true h.uses trivial, fun _ => ⟨h.tripTab, h.uses, h.inside, h.outside⟩⟩
  | initWork =>
    rw [Zone.step, Option.some_inj] at hstep
    subst hstep
    have huses : (∀ idx ∈ (z.uses ++ [0#32]), tab.Addresses idx) ↔ Within tab z .initWork := by
      rw [forall_uses_append h.uses, Within, ← htab.addresses_zero_iff]
      simp
    refine ⟨huses, fun hw => ⟨h.tripTab, huses.mpr hw, fun htwo => ?_, fun _ => rfl⟩⟩
    have hlen := (htab.toNat_numTrips htwo).2.1
    show (0#32).toNat + 1 < _
    rw [BitVec.toNat_zero]
    omega

end Step

/-- The driver after `rts_thermal_parse_dt`: the window is the first one and nothing has been
read. -/
def TripTab.start (tab : TripTab) (thermalK : Table) (ctLow ctHigh ctIntEn : BitVec 32) : Zone :=
  ⟨thermalK, tab, 0#32, ctLow, ctHigh, ctIntEn, []⟩

theorem indexed_start {tab : TripTab} (htab : tab.Parsed) (thermalK : Table)
    (ctLow ctHigh ctIntEn : BitVec 32) : Indexed tab (tab.start thermalK ctLow ctHigh ctIntEn) where
  tripTab := rfl
  uses _ hidx := (nomatch hidx)
  inside htwo := by
    have hlen := (htab.toNat_numTrips htwo).2.1
    show (0#32).toNat + 1 < _
    rw [BitVec.toNat_zero]
    omega
  outside _ := rfl

/-- **The trip points that a run reads have been set exactly if each of its events is `Within`.** -/
theorem addresses_run_iff {dt : DeviceTree} {alloc : Bool} {tab : TripTab}
    (h : rtsThermalParseDt dt alloc = some tab) (thermalK : Table)
    (ctLow ctHigh ctIntEn : BitVec 32) (es : List Event) :
    (∀ es₁ es₂ z, es = es₁ ++ es₂ →
        exec Zone.step (tab.start thermalK ctLow ctHigh ctIntEn) es₁ = some z →
          ∀ idx ∈ z.uses, tab.Addresses idx) ↔
      Along Zone.step (Within tab) (tab.start thermalK ctLow ctHigh ctIntEn) es := by
  have htab := parsed_of_parseDt h
  rw [forall_reached_iff]
  have hstart := indexed_start htab thermalK ctLow ctHigh ctIntEn
  refine (and_iff_right hstart.uses).trans (Along.congr (P := Indexed tab) ?_ ?_ hstart)
  · intro z e z' hz hC hstep
    obtain ⟨hiff, hnext⟩ := hz.step htab e hstep
    exact hnext (hiff.mp (hC z' hstep))
  · intro z e hz
    obtain ⟨z', hstep⟩ : ∃ z', z.step e = some z' := by cases e <;> exact ⟨_, rfl⟩
    rw [← (hz.step htab e hstep).1]
    refine ⟨fun hall => hall z' hstep, fun hall z'' hstep'' => ?_⟩
    rw [hstep, Option.some_inj] at hstep''
    exact hstep'' ▸ hall

/-- Three trip points, at 0, 75 and 80 degrees. -/
def threeTrips : DeviceTree where
  numTrips := some 3#32
  tripTemp i := [0#32, 7500#32, 8000#32][i]?
  thermalK := none

/-- A device tree that leaves the trip points to the driver. -/
def noTrips : DeviceTree where
  numTrips := some 0#32
  tripTemp _ := none
  thermalK := none

theorem addresses_run_iff_threeTrips :
    ∃ tab, rtsThermalParseDt threeTrips true = some tab ∧
      ∀ es₁ es₂ z,
        [Event.initWork, .interrupt 1#32 90000#32, .thermWork, .interrupt 1#32 95000#32] =
            es₁ ++ es₂ →
          exec Zone.step (tab.start (fun _ => 0#32) 0#32 0#32 0#32) es₁ = some z →
            ∀ idx ∈ z.uses, tab.Addresses idx := by
  have hparse : rtsThermalParseDt threeTrips true =
      some ⟨[⟨27315#32, .hot⟩, ⟨34815#32, .hot⟩, ⟨35315#32, .hot⟩], 3#32⟩ := by decide +kernel
  refine ⟨_, hparse, (addresses_run_iff hparse (fun _ => 0#32) 0#32 0#32 0#32 _).mpr ?_⟩
  have htwo : 2 ≤ (3#32).toInt := by decide
  exact ⟨Or.inl htwo, fun _ _ => ⟨Or.inr (Or.inr (Or.inl htwo)), fun _ _ => ⟨trivial, fun _ _ =>
    ⟨Or.inr (Or.inr (Or.inl htwo)), fun _ _ => trivial⟩⟩⟩⟩

/-- With the default, a code above the second trip point makes the driver read a third. -/
theorem not_addresses_default :
    ∃ tab z, rtsThermalParseDt noTrips true = some tab ∧
      exec Zone.step (tab.start (fun _ => 0#32) 0#32 0#32 0#32)
        [.initWork, .interrupt 1#32 76800#32] = some z ∧
      ¬ ∀ idx ∈ z.uses, tab.Addresses idx := by
  refine ⟨⟨[⟨27315#32, .hot⟩, ⟨35315#32, .hot⟩], 0#32⟩, _, by decide, rfl, fun h => ?_⟩
  have hlt := (h 1#32 (by decide +kernel)).1
  exact absurd hlt (by decide)

end RealtekIpcam.Thermal
