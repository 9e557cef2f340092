import Mathlib

/-!
# The thermal sensor

The sensor of `rts_thermal.c` delivers a code, a temperature in units of a 1024th of a degree with
19 bits.  A table of the device tree, `thermal_k`, says what the sensor takes the temperatures of
`actual_k` for, and the driver interpolates in the two tables in either direction.  Two trip points
around the present temperature are converted to codes and written to the sensor, which raises an
interrupt when it leaves the window between them; `cur_index` is the window.

All of it is 32-bit arithmetic, with signed quotients within a segment of the tables and unsigned
ones outside, and here it is computed as the code does.
-/

namespace RealtekIpcam.Thermal

/-! ## The tables -/

/-- The entries of a table of 18 words. -/
abbrev Table := Nat → BitVec 32

/-- `actual_k`. -/
def actualKList : List (BitVec 32) :=
  [26815, 27315, 27815, 28315, 28815, 29315, 29815, 30315,
    30815, 31315, 31815, 32315, 32815, 33315, 33815, 34315,
    34815, 35315]

/-- `actual_k[i]`. -/
def actualK : Table := fun i => actualKList.getD i 0

/-- The loop over a table: the first entry from `i` on, of `n`, that is not below `v`. -/
def searchFrom (tbl : Table) (v : BitVec 32) : Nat → Nat → Nat
  | 0, i => i
  | n + 1, i => if v ≤ tbl i then i else searchFrom tbl v n (i + 1)

/-- The segment of a table that `v` is interpolated in. -/
def segment (tbl : Table) (v : BitVec 32) : Nat :=
  let i := searchFrom tbl v 17 0
  if i > 0 then i - 1 else i

/-- The temperature `x`, interpolated in the segment `i` from one table to another. -/
def interpolate (src dst : Table) (i : Nat) (x : BitVec 32) : BitVec 32 :=
  let x1 := src i
  let y1 := dst i
  let x2 := src (i + 1)
  let y2 := dst (i + 1)
  ((x - x1) * (y2 - y1)).sdiv (x2 - x1) + y1

/-- What the sensor shows for a temperature of its own, in whole degrees. -/
def thkCode (thk : BitVec 32) : BitVec 32 := (thk - 27315#32) / 100#32 * 1024#32

/-- The temperature that a code stands for, of the sensor's own. -/
def codeThk (code : BitVec 32) : BitVec 32 :=
  if code &&& 0x40000#32 ≠ 0#32 then
    let codeS32 := 0#32 - (~~~((code &&& 0x3ffff#32) - 1#32) &&& 0x3ffff#32)
    codeS32.sdiv 1024#32 * 100#32 + 27315#32
  else code / 1024#32 * 100#32 + 27315#32

/-- `temp2code`, for the table `thermal_k`. -/
def temp2code (thermalK : Table) (actk : BitVec 32) : BitVec 32 :=
  thkCode (interpolate actualK thermalK (segment actualK actk) actk)

def code2temp (thermalK : Table) (code : BitVec 32) : BitVec 32 :=
  let thk := codeThk code
  interpolate thermalK actualK (segment thermalK thk) thk

/-! ## The device tree -/

def thermalMaxTrips : Nat := 12

/-- The `enum thermal_trip_type` that the driver uses. -/
inductive TripType where
  | hot | critical
  deriving DecidableEq

/-- `struct rts_trip_point`; of `temp`, an `unsigned long`, the driver converts 32 bits. -/
structure TripPoint where
  temp : BitVec 32
  type : TripType
  deriving DecidableEq

/-- `struct rts_thsens_platform_data`, with the trip points that have been set; those behind them
are zero. -/
structure TripTab where
  points : List TripPoint
  /-- `num_trips`, an `int`. -/
  numTrips : BitVec 32
  deriving DecidableEq

/-- The properties of the device tree that the driver reads. -/
structure DeviceTree where
  /-- `num-trips`. -/
  numTrips : Option (BitVec 32)
  /-- `trip%d-temp`. -/
  tripTemp : Nat → Option (BitVec 32)
  /-- The cells of `thermal_k`. -/
  thermalK : Option (List (BitVec 32))

def centigradeToK (temp : BitVec 32) : BitVec 32 := temp + 27315#32

/-- The loop of `rts_thermal_parse_dt` over the trip points. -/
def readTrips (dt : DeviceTree) : Nat → Option (List TripPoint)
  | 0 => some []
  | n + 1 =>
    match readTrips dt n, dt.tripTemp n with
    | some points, some tmpData => some (points ++ [⟨centigradeToK tmpData, .hot⟩])
    | _, _ => none

/-- `rts_thermal_parse_dt`; its first allocation fails unless `alloc`. -/
def rtsThermalParseDt (dt : DeviceTree) (alloc : Bool) : Option TripTab :=
  if !alloc then none
  else
    match dt.numTrips with
    | none => none
    | some tmpData =>
      if tmpData.toInt > thermalMaxTrips then none
      else if tmpData = 0#32 then
        some ⟨[⟨centigradeToK 0#32, .hot⟩, ⟨centigradeToK 8000#32, .hot⟩], tmpData⟩
      else (readTrips dt tmpData.toInt.toNat).map fun points => ⟨points, tmpData⟩

/-- The table `thermal_k` after `of_property_read_u32_array`, which leaves it alone if the property
is missing or has too few cells. -/
def readThermalK (dt : DeviceTree) : Table :=
  match dt.thermalK with
  | none => fun _ => 0#32
  | some cells => if 18 ≤ cells.length then fun i => cells.getD i 0#32 else fun _ => 0#32

/-- `trip_points[i].temp`. -/
def TripTab.temp (tab : TripTab) (i : Nat) : BitVec 32 :=
  ((tab.points[i]?).map TripPoint.temp).getD 0#32

/-! ## The device -/

/-- `struct rts_thermal_zone` with the registers of the window and of the interrupt. -/
structure Zone where
  thermalK : Table
  tripTab : TripTab
  /-- `cur_index`. -/
  curIndex : BitVec 32
  /-- `SYS_TM_CT_LOW`. -/
  ctLow : BitVec 32
  /-- `SYS_TM_CT_HIGH`. -/
  ctHigh : BitVec 32
  /-- `SYS_TM_CT_INT_EN`. -/
  ctIntEn : BitVec 32
  /-- The indices `idx` for which the trip points `idx` and `idx + 1` have been read. -/
  uses : List (BitVec 32)

/-- What happens in `rts_thermal_probe` besides the reading of the device tree. -/
structure ProbeOutcomes where
  /-- `devm_kzalloc` of the zone and of the trip points. -/
  zoneAlloc : Bool
  tabAlloc : Bool
  /-- `platform_get_resource` and `devm_ioremap_resource`. -/
  mapped : Bool
  /-- `platform_get_irq` and `devm_request_irq`. -/
  irq : Bool
  /-- What `thermal_zone_device_register` allocates. -/
  registered : Bool
  deriving DecidableEq

/-- The check of `thermal_zone_device_register` on the number of trip points. -/
def registerable (numTrips : BitVec 32) : Bool :=
  !(numTrips.toInt > thermalMaxTrips || numTrips.toInt < 0)

/-- `rts_thermal_probe`, up to `schedule_work`; the registers are as they were found. -/
def rtsThermalProbe (dt : DeviceTree) (o : ProbeOutcomes) (ctLow ctHigh ctIntEn : BitVec 32) :
    Option Zone :=
  if !o.zoneAlloc then none
  else
    match rtsThermalParseDt dt o.tabAlloc with
    | none => none
    | some ptrips =>
      if !o.mapped || !o.irq then none
      else if !registerable ptrips.numTrips || !o.registered then none
      else some ⟨readThermalK dt, ptrips, 0#32, ctLow, ctHigh, ctIntEn, []⟩

namespace Zone

def rtsHysteresis : BitVec 32 := 500#32

/-- Reading the trip points `idx` and `idx + 1`. -/
def use (z : Zone) (idx : BitVec 32) : Zone := { z with uses := z.uses ++ [idx] }

def rtsThermalUpdateConfig (z : Zone) (idx : BitVec 32) : Zone :=
  let z := { z with curIndex := idx }.use idx
  let dftLow := temp2code z.thermalK (z.tripTab.temp idx.toNat)
  let dftHigh := temp2code z.thermalK (z.tripTab.temp (idx + 1).toNat)
  let dftLow := if dftLow > rtsHysteresis then dftLow - rtsHysteresis else 0#32
  let dftHigh := dftHigh + rtsHysteresis
  { z with ctLow := dftLow, ctHigh := dftHigh }

/-- The window that `rts_thermal_irq_handler` chooses for a code; `num_trips - 1` and
`num_trips - 2` are converted to `unsigned int`. -/
def nextIndex (z : Zone) (idx code : BitVec 32) : BitVec 32 :=
  let lowc := z.tripTab.temp idx.toNat
  let highc := z.tripTab.temp (idx + 1).toNat
  if code < lowc then if idx > 0#32 then idx - 1#32 else idx
  else if code > highc then
    if idx < z.tripTab.numTrips - 2#32 then idx + 1#32 else idx
  else idx

/-- `rts_thermal_irq_handler`, when it reads `flags` from `SYS_TM_CT_INT_FLAG` and `code` from
`SYS_TM_OUT`. -/
def rtsThermalIrqHandler (z : Zone) (flags code : BitVec 32) : Zone :=
  if flags = 0#32 then z
  else if z.ctIntEn = 0#32 then z
  else
    let z := { z with ctIntEn := 0#32 }
    let idx := z.curIndex
    if idx < z.tripTab.numTrips - 1#32 then
      let z := z.use idx
      z.rtsThermalUpdateConfig (z.nextIndex idx code)
    else z

def rtsInitThermal (z : Zone) : Zone := { z.rtsThermalUpdateConfig 0#32 with ctIntEn := 1#32 }

/-- `rts_thermal_work`, as far as the window goes: it enables the interrupt again. -/
def rtsThermalWork (z : Zone) : Zone := { z with ctIntEn := 1#32 }

end Zone

/-- What happens to the driver once it has probed. -/
inductive Event where
  | initWork
  | interrupt (flags code : BitVec 32)
  | thermWork
  deriving DecidableEq

def Zone.step (z : Zone) : Event → Option Zone
  | .initWork => some z.rtsInitThermal
  | .interrupt flags code => some (z.rtsThermalIrqHandler flags code)
  | .thermWork => some z.rtsThermalWork

/-! ## Small facts -/

theorem actualK_eq {i : Nat} (h : i < 18) : actualK i = BitVec.ofNat 32 (26815 + 500 * i) := by
  interval_cases i <;> rfl

theorem toNat_actualK {i : Nat} (h : i < 18) : (actualK i).toNat = 26815 + 500 * i := by
  rw [actualK_eq h, BitVec.toNat_ofNat]
  omega

/-- The search stops at the first entry that is not below the value. -/
theorem searchFrom_spec (tbl : Table) (v : BitVec 32) (n i : Nat) :
    i ≤ searchFrom tbl v n i ∧ searchFrom tbl v n i ≤ i + n ∧
      (∀ m, i ≤ m → m < searchFrom tbl v n i → tbl m < v) ∧
      (searchFrom tbl v n i < i + n → v ≤ tbl (searchFrom tbl v n i)) := by
  induction n generalizing i with
  | zero =>
    refine ⟨le_refl i, le_refl i, fun m hm hlt => ?_, fun hlt => ?_⟩
    · have hlt' : m < i := hlt
      omega
    · have hlt' : i < i := hlt
      omega
  | succ n ih =>
    rw [searchFrom]
    by_cases hv : v ≤ tbl i
    · rw [if_pos hv]
      exact ⟨le_refl i, by omega, fun m hm hlt => by omega, fun _ => hv⟩
    · rw [if_neg hv]
      obtain ⟨hle, hub, hbelow, hstop⟩ := ih (i + 1)
      refine ⟨by omega, by omega, fun m hm hlt => ?_, fun hlt => hstop (by omega)⟩
      rcases Nat.eq_or_lt_of_le hm with rfl | hm'
      · exact BitVec.not_le.mp hv
      · exact hbelow m hm' hlt

/-- **The segment of a value**: the first one for a value that is not above the table, the last one
for a value above all but the last entry, and else the one that the value lies in. -/
theorem segment_cases (tbl : Table) (v : BitVec 32) :
    (v ≤ tbl 0 ∧ segment tbl v = 0) ∨
      (∃ i < 16, (∀ m ≤ i, tbl m < v) ∧ v ≤ tbl (i + 1) ∧ segment tbl v = i) ∨
      ((∀ m ≤ 16, tbl m < v) ∧ segment tbl v = 16) := by
  obtain ⟨-, hub, hbelow, hstop⟩ := searchFrom_spec tbl v 17 0
  unfold segment
  generalize searchFrom tbl v 17 0 = i at *
  rcases Nat.eq_zero_or_pos i with rfl | hpos
  · exact Or.inl ⟨hstop (by omega), rfl⟩
  · rcases Nat.lt_or_ge i 17 with hlt | hge
    · refine Or.inr (Or.inl ⟨i - 1, by omega, fun m hm => hbelow m (by omega) (by omega), ?_,
        if_pos hpos⟩)
      rw [Nat.sub_add_cancel hpos]
      exact hstop (by omega)
    · have hi : i = 17 := by omega
      subst hi
      exact Or.inr (Or.inr ⟨fun m hm => hbelow m (Nat.zero_le m) (by omega), rfl⟩)

theorem segment_lt (tbl : Table) (v : BitVec 32) : segment tbl v < 17 := by
  rcases segment_cases tbl v with ⟨-, h⟩ | ⟨i, hi, -, -, h⟩ | ⟨-, h⟩
  · omega
  · omega
  · omega

end RealtekIpcam.Thermal
