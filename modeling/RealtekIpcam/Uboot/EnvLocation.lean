import Mathlib
import RealtekIpcam.Uboot.Env

/-!
# Where the environment is loaded from and saved to

A board lists the places its environment may be in, best first, and `env_load` tries them in that
order.  It keeps no variable for its choice: `env_get_location` writes each priority it is asked for
into `gd->env_load_prio`, a load that succeeds returns at once and so leaves its own priority there,
and a scan that runs to the end calls `env_get_location` once more with the priority it wants to
leave behind.  `env_save` begins by reading `gd->env_load_prio` back.

Between the two stand the drivers without a load function and those whose init failed.  The scan
asks for their priority too, and so writes it, before it passes them over.  The invariant of the
scan, `Scanned`, therefore says nothing about the priority written last; it records which loads were
called and which of them was the first to report a bad checksum.
-/

namespace RealtekIpcam.Uboot

/-- `enum env_location`, the locations that `env_locations[]` may name. -/
inductive EnvLocation where
  | unknown | eeprom | ext4 | fat | flash | mmc | nand | nvram | remote | esata | spiFlash | ubi
  | nowhere
  deriving DecidableEq

/-- `struct env_driver`: its location, and whether its functions are set. -/
structure EnvDriver where
  location : EnvLocation
  load : Bool
  save : Bool
  deriving DecidableEq

/-- The two words of `gd` that the choice is kept in. -/
structure EnvGlobals where
  /-- `env_has_init`, a bit for each location. -/
  envHasInit : BitVec 64
  /-- `env_load_prio`. -/
  envLoadPrio : Int
  deriving DecidableEq

def ENODEV : Int := 19

/-- What `env_load` returns and leaves behind. -/
structure EnvLoaded where
  ret : Int
  gd : EnvGlobals
  /-- The priorities whose `load` was called, in order. -/
  calls : List Nat
  deriving DecidableEq

/-- What `env_save` returns and leaves behind. -/
structure EnvSaved where
  ret : Int
  gd : EnvGlobals
  /-- The locations whose `save` was called. -/
  calls : List EnvLocation
  deriving DecidableEq

/-- The locations of a board and the drivers it is linked with. -/
structure EnvBoard where
  /-- The value of the enumerator, which is the bit of the location in `env_has_init`. -/
  value : EnvLocation → Nat
  /-- The linker list of the drivers. -/
  drivers : List EnvDriver
  /-- `env_locations[]`. -/
  locations : List EnvLocation

namespace EnvBoard

variable (b : EnvBoard)

/-! ## `env.c` -/

/-- `_env_driver_lookup`. -/
def driverOf (loc : EnvLocation) : Option EnvDriver :=
  b.drivers.find? fun entry => loc == entry.location

def envHasInited (gd : EnvGlobals) (location : EnvLocation) : Bool :=
  gd.envHasInit &&& (1#64 <<< b.value location) != 0#64

/-- `env_get_location`; the operation it is asked for does not matter.  The bound of the array is
unsigned, so that a negative priority is beyond it. -/
def envGetLocation (gd : EnvGlobals) (prio : Int) : EnvLocation × EnvGlobals :=
  match if prio < 0 then none else b.locations[prio.toNat]? with
  | none => (.unknown, gd)
  | some loc => (loc, { gd with envLoadPrio := prio })

def envDriverLookup (gd : EnvGlobals) (prio : Int) : Option EnvDriver × EnvGlobals :=
  let (loc, gd) := b.envGetLocation gd prio
  if loc = .unknown then (none, gd) else (b.driverOf loc, gd)

/-- The loop of `env_load`, from the priority `prio` on; `loads prio` is what the load function of
that priority returns.  There is no result when the fuel is used up. -/
def envLoadFrom (loads : Nat → Int) :
    Nat → Nat → Int → EnvGlobals → List Nat → Option EnvLoaded
  | 0, _, _, _, _ => none
  | fuel + 1, prio, bestPrio, gd, calls =>
    match b.envDriverLookup gd prio with
    | (none, gd) =>
      let bestPrio := if bestPrio ≥ 0 then bestPrio else 0
      some ⟨-ENODEV, (b.envGetLocation gd bestPrio).2, calls⟩
    | (some drv, gd) =>
      if !drv.load then envLoadFrom loads fuel (prio + 1) bestPrio gd calls
      else if !b.envHasInited gd drv.location then
        envLoadFrom loads fuel (prio + 1) bestPrio gd calls
      else
        let ret := loads prio
        let calls := calls ++ [prio]
        if ret = 0 then some ⟨0, gd, calls⟩
        else if ret = -ENOMSG then
          envLoadFrom loads fuel (prio + 1) (if bestPrio = -1 then (prio : Int) else bestPrio) gd
            calls
        else envLoadFrom loads fuel (prio + 1) bestPrio gd calls

/-- `env_load`.  Each round asks for one more priority, and the round after the last location ends
the loop. -/
def envLoad (loads : Nat → Int) (gd : EnvGlobals) : Option EnvLoaded :=
  b.envLoadFrom loads (b.locations.length + 1) 0 (-1) gd []

/-- `env_save`; `saves` is what the save function of a location returns. -/
def envSave (saves : EnvLocation → Int) (gd : EnvGlobals) : EnvSaved :=
  match b.envDriverLookup gd gd.envLoadPrio with
  | (none, gd) => ⟨-ENODEV, gd, []⟩
  | (some drv, gd) =>
    if !drv.save then ⟨-ENODEV, gd, []⟩
    else if !b.envHasInited gd drv.location then ⟨-ENODEV, gd, []⟩
    else ⟨if saves drv.location = 0 then 0 else -ENODEV, gd, [drv.location]⟩

/-! ## What the scan is to choose -/

/-- Every location of the board has a driver. -/
def Registered : Prop :=
  ∀ loc ∈ b.locations, loc ≠ .unknown ∧ ∃ drv ∈ b.drivers, drv.location = loc
  deriving Decidable

/-- The driver of the location of priority `prio`. -/
def driverAt (prio : Nat) : Option EnvDriver := b.locations[prio]?.bind b.driverOf

/-- The driver of this priority is initialised and has a load function. -/
def Loadable (gd : EnvGlobals) (prio : Nat) : Prop :=
  ∃ drv ∈ b.driverAt prio, drv.load = true ∧ b.envHasInited gd drv.location = true
  deriving Decidable

/-- The first priority whose load returns `ret`. -/
def FirstLoad (gd : EnvGlobals) (loads : Nat → Int) (ret : Int) (prio : Nat) : Prop :=
  b.Loadable gd prio ∧ loads prio = ret ∧ ∀ q < prio, b.Loadable gd q → loads q ≠ ret

/-- A save that uses the location of priority `prio`: the result and the locations whose `save` is
called. -/
def saveAt (saves : EnvLocation → Int) (gd : EnvGlobals) (prio : Nat) : Int × List EnvLocation :=
  match b.driverAt prio with
  | none => (-ENODEV, [])
  | some drv =>
    if drv.save ∧ b.envHasInited gd drv.location then
      (if saves drv.location = 0 then 0 else -ENODEV, [drv.location])
    else (-ENODEV, [])

/-- The next save uses the location of priority `prio`. -/
def SavesAt (gd : EnvGlobals) (prio : Nat) : Prop :=
  ∀ saves, ((b.envSave saves gd).ret, (b.envSave saves gd).calls) = b.saveAt saves gd prio

variable {b}

/-! ## Looking a priority up -/

theorem envGetLocation_some {prio : Nat} {loc : EnvLocation} (h : b.locations[prio]? = some loc)
    (gd : EnvGlobals) :
    b.envGetLocation gd prio = (loc, { gd with envLoadPrio := prio }) := by
  have hpos : ¬ (prio : Int) < 0 := by omega
  simp [envGetLocation, hpos, h]

theorem envGetLocation_none {prio : Nat} (h : b.locations[prio]? = none) (gd : EnvGlobals) :
    b.envGetLocation gd prio = (.unknown, gd) := by
  have hpos : ¬ (prio : Int) < 0 := by omega
  simp [envGetLocation, hpos, h]

theorem driverOf_isSome (hb : b.Registered) {loc : EnvLocation} (h : loc ∈ b.locations) :
    ∃ drv, b.driverOf loc = some drv := by
  obtain ⟨drv, hdrv, hloc⟩ := (hb loc h).2
  refine Option.isSome_iff_exists.mp ?_
  rw [driverOf, List.find?_isSome]
  exact ⟨drv, hdrv, by simp [hloc]⟩

theorem envDriverLookup_of_lt (hb : b.Registered) {prio : Nat} (h : prio < b.locations.length)
    (gd : EnvGlobals) :
    ∃ drv, b.driverAt prio = some drv ∧
      b.envDriverLookup gd prio = (some drv, { gd with envLoadPrio := prio }) := by
  have hget : b.locations[prio]? = some b.locations[prio] := List.getElem?_eq_getElem h
  have hmem : b.locations[prio] ∈ b.locations := List.getElem_mem h
  obtain ⟨drv, hdrv⟩ := driverOf_isSome hb hmem
  refine ⟨drv, ?_, ?_⟩
  · rw [driverAt, hget]
    exact hdrv
  · rw [envDriverLookup, envGetLocation_some hget]
    simp [(hb _ hmem).1, hdrv]

theorem envDriverLookup_of_ge {prio : Nat} (h : b.locations.length ≤ prio) (gd : EnvGlobals) :
    b.driverAt prio = none ∧ b.envDriverLookup gd prio = (none, gd) := by
  have hget : b.locations[prio]? = none := List.getElem?_eq_none h
  refine ⟨by rw [driverAt, hget]; rfl, ?_⟩
  rw [envDriverLookup, envGetLocation_none hget]
  simp

theorem Loadable.lt {gd : EnvGlobals} {prio : Nat} (h : b.Loadable gd prio) :
    prio < b.locations.length := by
  by_contra hge
  obtain ⟨drv, hdrv, -⟩ := h
  rw [(envDriverLookup_of_ge (by omega) gd).1] at hdrv
  cases hdrv

theorem loadable_congr (gd' : EnvGlobals) {gd : EnvGlobals}
    (h : gd'.envHasInit = gd.envHasInit) (prio : Nat) :
    b.Loadable gd' prio ↔ b.Loadable gd prio := by
  simp [Loadable, envHasInited, h]

theorem savesAt_of_envLoadPrio (hb : b.Registered) {gd : EnvGlobals} {prio : Nat}
    (h : gd.envLoadPrio = prio) : b.SavesAt gd prio := by
  intro saves
  by_cases hlt : prio < b.locations.length
  · obtain ⟨drv, hat, hlook⟩ := envDriverLookup_of_lt hb hlt gd
    have hgd : { gd with envLoadPrio := (prio : Int) } = gd := by rw [← h]
    rw [hgd] at hlook
    rw [envSave, h, hlook, saveAt, hat]
    by_cases hsave : drv.save <;> by_cases hinit : b.envHasInited gd drv.location <;>
      simp [hsave, hinit]
  · obtain ⟨hat, hlook⟩ := envDriverLookup_of_ge (b := b) (by omega : _ ≤ prio) gd
    rw [envSave, h, hlook, saveAt, hat]

theorem savesAt_of_nil (h : b.locations = []) (gd : EnvGlobals) (prio : Nat) :
    b.SavesAt gd prio := by
  intro saves
  have hlook : b.envDriverLookup gd gd.envLoadPrio = (none, gd) := by
    simp [envDriverLookup, envGetLocation, h]
  simp [envSave, hlook, saveAt, driverAt, h]

/-! ## The invariant of the scan -/

/-- The scan has come to `prio` without a load that succeeded. -/
structure Scanned (b : EnvBoard) (gd₀ : EnvGlobals) (loads : Nat → Int) (prio : Nat)
    (bestPrio : Int) (gd : EnvGlobals) (calls : List Nat) : Prop where
  inited : gd.envHasInit = gd₀.envHasInit
  calls_eq : calls = (List.range prio).filter fun q => b.Loadable gd₀ q
  failed : ∀ q < prio, b.Loadable gd₀ q → loads q ≠ 0
  best : (bestPrio = -1 ∧ ∀ q < prio, b.Loadable gd₀ q → loads q ≠ -ENOMSG) ∨
    ∃ q < prio, bestPrio = (q : Int) ∧ b.FirstLoad gd₀ loads (-ENOMSG) q

/-- The outcome of a scan that ran from `gd₀`. -/
structure Chosen (b : EnvBoard) (gd₀ : EnvGlobals) (loads : Nat → Int) (out : EnvLoaded) :
    Prop where
  ret_eq_zero : out.ret = 0 ↔ ∃ prio, b.Loadable gd₀ prio ∧ loads prio = 0
  success : ∀ prio, b.FirstLoad gd₀ loads 0 prio →
    out.calls = (List.range (prio + 1)).filter (fun q => b.Loadable gd₀ q) ∧
      b.SavesAt out.gd prio
  badCrc : (∀ prio, b.Loadable gd₀ prio → loads prio ≠ 0) →
    ∀ prio, b.FirstLoad gd₀ loads (-ENOMSG) prio → b.SavesAt out.gd prio
  noBadCrc : (∀ prio, b.Loadable gd₀ prio → loads prio ≠ 0 ∧ loads prio ≠ -ENOMSG) →
    b.SavesAt out.gd 0

theorem neg_enodev_ne : -ENODEV ≠ 0 := by decide

theorem FirstLoad.unique {gd : EnvGlobals} {loads : Nat → Int} {ret : Int} {p q : Nat}
    (hp : b.FirstLoad gd loads ret p) (hq : b.FirstLoad gd loads ret q) : p = q := by
  rcases Nat.lt_trichotomy p q with hlt | heq | hgt
  · exact absurd hp.2.1 (hq.2.2 p hlt hp.1)
  · exact heq
  · exact absurd hq.2.1 (hp.2.2 q hgt hq.1)

namespace Scanned

variable {gd₀ gd : EnvGlobals} {loads : Nat → Int} {prio : Nat} {bestPrio : Int}
  {calls : List Nat}

theorem skip (h : b.Scanned gd₀ loads prio bestPrio gd calls) (gd' : EnvGlobals)
    (hgd : gd'.envHasInit = gd.envHasInit) (hnot : ¬ b.Loadable gd₀ prio) :
    b.Scanned gd₀ loads (prio + 1) bestPrio gd' calls where
  inited := hgd.trans h.inited
  calls_eq := by rw [List.range_succ, List.filter_append, h.calls_eq]; simp [hnot]
  failed q hq hl := by
    rcases Nat.lt_succ_iff_lt_or_eq.mp hq with hlt | rfl
    · exact h.failed q hlt hl
    · exact absurd hl hnot
  best := by
    rcases h.best with ⟨hneg, hnone⟩ | ⟨q, hq, heq, hfirst⟩
    · refine Or.inl ⟨hneg, fun q hq hl => ?_⟩
      rcases Nat.lt_succ_iff_lt_or_eq.mp hq with hlt | rfl
      · exact hnone q hlt hl
      · exact absurd hl hnot
    · exact Or.inr ⟨q, by omega, heq, hfirst⟩

theorem fail (h : b.Scanned gd₀ loads prio bestPrio gd calls) (gd' : EnvGlobals)
    (hgd : gd'.envHasInit = gd.envHasInit) (hl : b.Loadable gd₀ prio) (hret : loads prio ≠ 0) :
    b.Scanned gd₀ loads (prio + 1)
      (if loads prio = -ENOMSG ∧ bestPrio = -1 then (prio : Int) else bestPrio) gd'
      (calls ++ [prio]) where
  inited := hgd.trans h.inited
  calls_eq := by rw [List.range_succ, List.filter_append, h.calls_eq]; simp [hl]
  failed q hq hlq := by
    rcases Nat.lt_succ_iff_lt_or_eq.mp hq with hlt | rfl
    · exact h.failed q hlt hlq
    · exact hret
  best := by
    rcases h.best with ⟨hneg, hnone⟩ | ⟨q, hq, heq, hfirst⟩
    · by_cases hmsg : loads prio = -ENOMSG
      · rw [if_pos ⟨hmsg, hneg⟩]
        exact Or.inr ⟨prio, by omega, rfl, hl, hmsg, hnone⟩
      · rw [if_neg fun hc => hmsg hc.1]
        refine Or.inl ⟨hneg, fun q hq hlq => ?_⟩
        rcases Nat.lt_succ_iff_lt_or_eq.mp hq with hlt | rfl
        · exact hnone q hlt hlq
        · exact hmsg
    · rw [if_neg fun hc => by omega]
      exact Or.inr ⟨q, by omega, heq, hfirst⟩

theorem chosen_of_success (hb : b.Registered) (h : b.Scanned gd₀ loads prio bestPrio gd calls)
    (hl : b.Loadable gd₀ prio) (hret : loads prio = 0) :
    b.Chosen gd₀ loads ⟨0, { gd with envLoadPrio := prio }, calls ++ [prio]⟩ where
  ret_eq_zero := ⟨fun _ => ⟨prio, hl, hret⟩, fun _ => rfl⟩
  success p hp := by
    have heq : p = prio := hp.unique ⟨hl, hret, h.failed⟩
    subst heq
    refine ⟨?_, savesAt_of_envLoadPrio hb rfl⟩
    rw [List.range_succ, List.filter_append, h.calls_eq]
    simp [hl]
  badCrc hnone := absurd hret (hnone prio hl)
  noBadCrc hnone := absurd hret (hnone prio hl).1

theorem chosen_of_end (hb : b.Registered) (h : b.Scanned gd₀ loads prio bestPrio gd calls)
    (hend : b.locations.length ≤ prio) :
    b.Chosen gd₀ loads
      ⟨-ENODEV, (b.envGetLocation gd (if bestPrio ≥ 0 then bestPrio else 0)).2, calls⟩ := by
  have hno : ∀ p, b.Loadable gd₀ p → loads p ≠ 0 := fun p hp =>
    h.failed p (Nat.lt_of_lt_of_le hp.lt hend) hp
  refine ⟨⟨fun hret => absurd hret neg_enodev_ne, fun ⟨p, hp, hret⟩ => absurd hret (hno p hp)⟩,
    fun p hp => absurd hp.2.1 (hno p hp.1), fun _ p hp => ?_, fun hnone => ?_⟩
  · rcases h.best with ⟨-, hnone⟩ | ⟨q, -, heq, hfirst⟩
    · exact absurd hp.2.1 (hnone p (Nat.lt_of_lt_of_le hp.1.lt hend) hp.1)
    · have hpq : q = p := hfirst.unique hp
      subst hpq
      have hlt : q < b.locations.length := hfirst.1.lt
      have hget : b.locations[q]? = some b.locations[q] := List.getElem?_eq_getElem hlt
      have hge : (q : Int) ≥ 0 := by omega
      rw [heq, if_pos hge, envGetLocation_some hget]
      exact savesAt_of_envLoadPrio hb rfl
  · have hbest : bestPrio = -1 := by
      rcases h.best with ⟨hneg, -⟩ | ⟨q, -, -, hfirst⟩
      · exact hneg
      · exact absurd hfirst.2.1 (hnone q hfirst.1).2
    rw [hbest, if_neg (by decide)]
    by_cases hnil : b.locations = []
    · exact savesAt_of_nil hnil _ 0
    · have hlt : 0 < b.locations.length := List.length_pos_iff.mpr hnil
      have hget : b.locations[0]? = some b.locations[0] := List.getElem?_eq_getElem hlt
      have hfirst := envGetLocation_some hget gd
      rw [Int.natCast_zero] at hfirst
      rw [hfirst]
      exact savesAt_of_envLoadPrio hb rfl

end Scanned

theorem scanned_zero (gd : EnvGlobals) (loads : Nat → Int) :
    b.Scanned gd loads 0 (-1) gd [] :=
  ⟨rfl, rfl, fun q hq => absurd hq (Nat.not_lt_zero q),
    Or.inl ⟨rfl, fun q hq => absurd hq (Nat.not_lt_zero q)⟩⟩

/-- The loop chooses where to load from. -/
theorem envLoadFrom_chosen (hb : b.Registered) {gd₀ : EnvGlobals} {loads : Nat → Int}
    (fuel : Nat) {prio : Nat} {bestPrio : Int} {gd : EnvGlobals} {calls : List Nat}
    (h : b.Scanned gd₀ loads prio bestPrio gd calls) (hfuel : b.locations.length < fuel + prio)
    (hle : prio ≤ b.locations.length) :
    ∃ out, b.envLoadFrom loads fuel prio bestPrio gd calls = some out ∧
      b.Chosen gd₀ loads out := by
  induction fuel generalizing prio bestPrio gd calls with
  | zero => omega
  | succ fuel ih =>
    by_cases hend : b.locations.length ≤ prio
    · have hlook := (envDriverLookup_of_ge hend gd).2
      refine ⟨_, ?_, h.chosen_of_end hb hend⟩
      simp only [envLoadFrom, hlook]
    · obtain ⟨drv, hat, hlook⟩ := envDriverLookup_of_lt hb (Nat.lt_of_not_le hend) gd
      have hrec := fun best calls (hs : b.Scanned gd₀ loads (prio + 1) best
        { gd with envLoadPrio := (prio : Int) } calls) => ih hs (by omega) (by omega)
      have hiff : b.Loadable gd₀ prio ↔ drv.load = true ∧
          b.envHasInited { gd with envLoadPrio := (prio : Int) } drv.location = true := by
        rw [← loadable_congr { gd with envLoadPrio := (prio : Int) } h.inited]
        simp [Loadable, hat]
      simp only [envLoadFrom, hlook]
      by_cases hload : drv.load
      · by_cases hinit : b.envHasInited { gd with envLoadPrio := (prio : Int) } drv.location
        · have hl : b.Loadable gd₀ prio := hiff.mpr ⟨hload, hinit⟩
          simp only [hload, hinit, Bool.not_true, Bool.false_eq_true, if_false]
          by_cases hret : loads prio = 0
          · rw [if_pos hret]
            exact ⟨_, rfl, h.chosen_of_success hb hl hret⟩
          · rw [if_neg hret]
            have hs := h.fail { gd with envLoadPrio := (prio : Int) } rfl hl hret
            by_cases hmsg : loads prio = -ENOMSG
            · simpa [hmsg] using hrec _ _ (by simpa [hmsg] using hs)
            · simpa [hmsg] using hrec _ _ (by simpa [hmsg] using hs)
        · have hskip := h.skip { gd with envLoadPrio := (prio : Int) } rfl
            fun hl => hinit (hiff.mp hl).2
          simpa [hload, hinit] using hrec _ _ hskip
      · have hskip := h.skip { gd with envLoadPrio := (prio : Int) } rfl
          fun hl => hload (hiff.mp hl).1
        simpa [hload] using hrec _ _ hskip

/-- **The load finds the first location that works, and the next save goes where it says.**  The
scan always ends; it returns 0 exactly if some loadable location succeeds, it then called the
loadable locations up to the first of them and none behind it, and the next save uses that one.  If
none succeeds, the next save uses the first that reported a bad checksum, or else the location of
priority 0. -/
theorem envLoad_chooses (b : EnvBoard) (hb : b.Registered) (gd : EnvGlobals) (loads : Nat → Int) :
    ∃ out, b.envLoad loads gd = some out ∧
      (out.ret = 0 ↔ ∃ prio, b.Loadable gd prio ∧ loads prio = 0) ∧
      (∀ prio, b.FirstLoad gd loads 0 prio →
        out.calls = (List.range (prio + 1)).filter (fun q => b.Loadable gd q) ∧
          b.SavesAt out.gd prio) ∧
      ((∀ prio, b.Loadable gd prio → loads prio ≠ 0) →
        ∀ prio, b.FirstLoad gd loads (-ENOMSG) prio → b.SavesAt out.gd prio) ∧
      ((∀ prio, b.Loadable gd prio → loads prio ≠ 0 ∧ loads prio ≠ -ENOMSG) →
        b.SavesAt out.gd 0) := by
  obtain ⟨out, hout, hchosen⟩ := envLoadFrom_chosen hb (b.locations.length + 1)
    (scanned_zero gd loads) (by omega) (Nat.zero_le _)
  exact ⟨out, hout, hchosen.ret_eq_zero, hchosen.success, hchosen.badCrc, hchosen.noBadCrc⟩

/-- A board with a flash, whose driver has no load function, an MMC and a SPI flash. -/
def threePlaces : EnvBoard where
  value
    | .flash => 4
    | .mmc => 5
    | .spiFlash => 10
    | _ => 0
  drivers := [⟨.spiFlash, true, true⟩, ⟨.flash, false, true⟩, ⟨.mmc, true, true⟩]
  locations := [.flash, .mmc, .spiFlash]

theorem envLoad_chooses_threePlaces :
    threePlaces.Registered ∧
      ∃ out, threePlaces.envLoad (fun prio => if prio = 1 then -ENOMSG else -5) ⟨0x430, 0⟩ =
          some out ∧
        threePlaces.SavesAt out.gd 1 := by
  have hreg : threePlaces.Registered := by decide
  obtain ⟨out, hout, -, -, hbad, -⟩ := envLoad_chooses threePlaces hreg ⟨0x430, 0⟩
    (fun prio => if prio = 1 then -ENOMSG else -5)
  refine ⟨hreg, out, hout, hbad (fun prio _ => ?_) 1 ⟨by decide, rfl, ?_⟩⟩
  · by_cases hp : prio = 1
    · simp [hp, ENOMSG]
    · simp [hp]
  · intro q hq
    have hq0 : q = 0 := by omega
    subst hq0
    decide

end EnvBoard
end RealtekIpcam.Uboot
