import RealtekIpcam.Lib.RangeTable
import RealtekIpcam.Lib.Runs
import RealtekIpcam.Lib.Words

/-!
# The numbers of the GPIO lines

Every chip has a range of the global GPIO numbers.  A chip may ask for a certain base; otherwise
`gpiochip_find_base` looks for room from the top downwards.  The list of the devices is kept sorted
by their ranges, and both the search and the translation of a number into a descriptor go by it.

A device stays in the list until the last reference to it is put, which may be long after its chip
was removed; a chip whose registration fails after the insertion is taken out at once.

All of this holds as long as no range ends beyond the largest `int`: `numbers_held`.  The end of a
range is computed as an `int`, and beyond that it is negative: `not_numbers_held`.
-/

namespace RealtekIpcam.Gpiolib

def ENOMEM : Int := 12
def EBUSY : Int := 16
def EINVAL : Int := 22
def ENOSPC : Int := 28

/-! ## Devices -/

def INT_MAX : Int := 2 ^ 31 - 1

/-- The sum of two `int`s. -/
def addInt (a b : Int) : Int := (a + b).bmod (2 ^ 32)

/-- `struct gpio_device`.  `key` tells it from all other devices there ever were; `chip` is whether
its chip is still there, and `release` whether its release function has been set. -/
structure GpioDevice where
  key : Nat
  base : Int
  ngpio : Nat
  chip : Bool
  refs : Nat
  release : Bool
  deriving DecidableEq

def GpioDevice.chipRefs (gdev : GpioDevice) : Nat := if gdev.chip then 1 else 0

/-- `gdev->base + gdev->ngpio`. -/
def GpioDevice.stop (gdev : GpioDevice) : Int := addInt gdev.base gdev.ngpio

/-- What a driver asks for.  The base is an `int` and the number of lines a `u16`. -/
structure GpioChip where
  base : Int
  ngpio : Nat
  base_le : base ≤ INT_MAX
  ngpio_lt : ngpio < 2 ^ 16

/-- `ARCH_NR_GPIOS` and `gpio_is_valid`, which the architecture provides. -/
structure GpioHeader where
  archNrGpios : Int
  gpioIsValid : Int → Bool

/-- A number is valid if it is one of the first `ARCH_NR_GPIOS`. -/
structure GpioHeader.Conforms (header : GpioHeader) : Prop where
  valid : ∀ n, header.gpioIsValid n = true ↔ 0 ≤ n ∧ n < header.archNrGpios
  nonneg : 0 ≤ header.archNrGpios
  le : header.archNrGpios ≤ INT_MAX

/-! ## The list -/

/-- The loop of `gpiodev_add_to_list`: the first two neighbours that leave room. -/
def addBetween (gdev : GpioDevice) : List GpioDevice → Option (List GpioDevice)
  | prev :: next :: rest =>
    if prev.stop ≤ gdev.base ∧ gdev.stop ≤ next.base then some (prev :: gdev :: next :: rest)
    else (addBetween gdev (next :: rest)).map (prev :: ·)
  | _ => none

/-- `gpiodev_add_to_list`, with the list it leaves; none is `-EBUSY`. -/
def gpiodevAddToList (devices : List GpioDevice) (gdev : GpioDevice) : Option (List GpioDevice) :=
  match devices with
  | [] => some [gdev]
  | next :: rest =>
    if gdev.stop ≤ next.base then some (gdev :: next :: rest)
    else if ((next :: rest).getLast (List.cons_ne_nil next rest)).stop ≤ gdev.base then
      some (next :: rest ++ [gdev])
    else addBetween gdev (next :: rest)

/-- The loop of `gpiochip_find_base`, over the devices from the last to the first. -/
def findBaseFrom (ngpio : Nat) : List GpioDevice → Int → Int
  | [], base => base
  | gdev :: rest, base =>
    if gdev.stop ≤ base then base else findBaseFrom ngpio rest (gdev.base - ngpio)

def gpiochipFindBase (header : GpioHeader) (devices : List GpioDevice) (ngpio : Nat) : Int :=
  let base := findBaseFrom ngpio devices.reverse (header.archNrGpios - ngpio)
  if header.gpioIsValid base then base else -ENOSPC

/-- `gpio_to_desc`.  A descriptor is a device and an index into its `descs`. -/
def gpioToDesc (devices : List GpioDevice) (gpio : UInt32) : Option (GpioDevice × Nat) :=
  (devices.find? fun gdev =>
    Words.u32 gdev.base ≤ gpio.toNat && gpio.toNat < Words.u32 gdev.stop).map fun gdev =>
      (gdev, Words.u32 (gpio.toNat - gdev.base))

def descToGpio (desc : GpioDevice × Nat) : Int := addInt desc.1.base desc.2

def listDel (devices : List GpioDevice) (key : Nat) : List GpioDevice :=
  devices.filter fun gdev => gdev.key ≠ key

/-! ## Registration -/

/-- The list `gpio_devices`, whether `gpiolib_dev_init` has run, and the key of the next device. -/
structure GpioSpace where
  devices : List GpioDevice
  initialized : Bool
  next : Nat
  deriving DecidableEq

/-- What the calls that a registration makes return: the allocations up to the insertion into the
list, and all that comes after it. -/
structure AddOutcomes where
  gdev : Bool
  id : Int
  descs : Bool
  label : Bool
  setDescNames : Int
  allocValidMask : Int
  ofGpiochipAdd : Int
  initValidMask : Int
  irqchipInitHw : Int
  irqchipInitValidMask : Int
  addIrqchip : Int
  cdevDeviceAdd : Int
  sysfsRegister : Int

/-- The first of a row of calls that fails ends it. -/
def firstError : List Int → Int
  | [] => 0
  | ret :: rets => if ret ≠ 0 then ret else firstError rets

/-- What is done once the device is in the list.  The device is set up now only if the library has
been initialized. -/
def AddOutcomes.afterInsertion (o : AddOutcomes) (initialized : Bool) : Int :=
  firstError ([o.setDescNames, o.allocValidMask, o.ofGpiochipAdd, o.initValidMask, o.irqchipInitHw,
    o.irqchipInitValidMask, o.addIrqchip] ++
    if initialized then [o.cdevDeviceAdd, o.sysfsRegister] else [])

def gpiochipAddDataWithKey (header : GpioHeader) (s : GpioSpace) (chip : GpioChip)
    (o : AddOutcomes) : Int × GpioSpace :=
  if !o.gdev then (-ENOMEM, s)
  else if o.id < 0 then (o.id, s)
  else if !o.descs then (-ENOMEM, s)
  else if chip.ngpio = 0 then (-EINVAL, s)
  else if !o.label then (-ENOMEM, s)
  else
    let base := if chip.base < 0 then gpiochipFindBase header s.devices chip.ngpio else chip.base
    if base < 0 then (base, s)
    else
      let gdev : GpioDevice := ⟨s.next, base, chip.ngpio, true, 1, false⟩
      match gpiodevAddToList s.devices gdev with
      | none => (-EBUSY, s)
      | some devices =>
        let ret := o.afterInsertion s.initialized
        if ret ≠ 0 then (ret, { s with devices := listDel devices s.next, next := s.next + 1 })
        else
          (0, { s with
            devices := devices.map fun d =>
              if d.key = s.next then { d with release := s.initialized } else d
            next := s.next + 1 })

/-- `put_device`.  With the last reference the device is released, if it knows how. -/
def putDevice (devices : List GpioDevice) (gdev : GpioDevice) : List GpioDevice :=
  if gdev.refs = 1 ∧ gdev.release then listDel devices gdev.key
  else devices.map fun d => if d.key = gdev.key then { d with refs := d.refs - 1 } else d

/-- What happens to the list. -/
inductive GpioEvent where
  | add (chip : GpioChip) (o : AddOutcomes)
  /-- `gpiochip_remove`. -/
  | remove (key : Nat)
  /-- A line is requested, or the character device is opened. -/
  | get (key : Nat)
  /-- One of these references is put. -/
  | put (key : Nat)
  /-- `gpiolib_dev_init`, with what `gpiochip_setup_dev` returns for each device. -/
  | devInit (setupDev : Nat → Int)

def gpioStep (header : GpioHeader) (s : GpioSpace) : GpioEvent → Option GpioSpace
  | .add chip o => some (gpiochipAddDataWithKey header s chip o).2
  | .remove key =>
    match s.devices.find? fun d => d.key = key with
    | none => none
    | some gdev =>
      if gdev.chip then
        let devices := s.devices.map fun d => if d.key = key then { d with chip := false } else d
        some { s with devices := putDevice devices gdev }
      else none
  | .get key =>
    match s.devices.find? fun d => d.key = key with
    | none => none
    | some gdev =>
      if gdev.chip then
        some { s with devices := s.devices.map fun d =>
          if d.key = key then { d with refs := d.refs + 1 } else d }
      else none
  | .put key =>
    match s.devices.find? fun d => d.key = key with
    | none => none
    | some gdev =>
      if gdev.chipRefs < gdev.refs then
        some { s with devices := putDevice s.devices gdev }
      else none
  | .devInit setupDev =>
    if s.initialized then none
    else
      some { s with
        initialized := true
        devices := s.devices.map fun d => { d with release := setupDev d.key = 0 } }

/-- Before any chip is registered. -/
def GpioSpace.start : GpioSpace := ⟨[], false, 0⟩

def GpioDevice.range (gdev : GpioDevice) : Set Int :=
  RangeTable.span gdev.base (gdev.base + gdev.ngpio)

/-- The list is sorted, its ranges are disjoint, and everything that goes by it is right. -/
structure NumbersHeld (header : GpioHeader) (s : GpioSpace) : Prop where
  sorted : s.devices.Pairwise fun d e => d.base < e.base
  disjoint : s.devices.Pairwise fun d e => Disjoint d.range e.range
  /-- A base that is found has room for the whole chip. -/
  findBase : ∀ ngpio, 0 < ngpio → ngpio < 2 ^ 16 →
    gpiochipFindBase header s.devices ngpio ≠ -ENOSPC →
    0 ≤ gpiochipFindBase header s.devices ngpio ∧
      ∀ d ∈ s.devices, Disjoint (RangeTable.span (gpiochipFindBase header s.devices ngpio)
        (gpiochipFindBase header s.devices ngpio + ngpio)) d.range
  /-- A number belongs to one device at most. -/
  unique : ∀ d ∈ s.devices, ∀ e ∈ s.devices, ∀ n ∈ d.range, n ∈ e.range → d = e
  /-- It is translated into a descriptor of that device, -/
  toDesc : ∀ gpio d i, gpioToDesc s.devices gpio = some (d, i) ↔
    d ∈ s.devices ∧ i < d.ngpio ∧ (gpio.toNat : Int) = d.base + i
  /-- or into none. -/
  toDesc_none : ∀ gpio, gpioToDesc s.devices gpio = none ↔
    ∀ d ∈ s.devices, (gpio.toNat : Int) ∉ d.range
  /-- The number of a descriptor leads back to it. -/
  toGpio : ∀ d ∈ s.devices, ∀ i < d.ngpio, 0 ≤ descToGpio (d, i) ∧
    gpioToDesc s.devices (UInt32.ofNat (descToGpio (d, i)).toNat) = some (d, i)
  /-- A registration that fails changes nothing. -/
  failed : ∀ chip o, (gpiochipAddDataWithKey header s chip o).1 ≠ 0 →
    (gpiochipAddDataWithKey header s chip o).2.devices = s.devices

/-- A base that is asked for leaves the end of the range an `int`. -/
def InInt (_ : GpioSpace) : GpioEvent → Prop
  | .add chip _ => chip.base + chip.ngpio ≤ INT_MAX
  | _ => True

instance (s : GpioSpace) : ∀ e, Decidable (InInt s e)
  | .add chip _ => inferInstanceAs (Decidable (chip.base + chip.ngpio ≤ INT_MAX))
  | .remove _ => isTrue trivial
  | .get _ => isTrue trivial
  | .put _ => isTrue trivial
  | .devInit _ => isTrue trivial

/-! ## The invariant -/

/-- The end of the range of a device, where it is an `int`. -/
def GpioDevice.past (gdev : GpioDevice) : Int := gdev.base + gdev.ngpio

/-- The range is not empty, and its numbers and its end are `int`s. -/
structure GpioDevice.Fits (gdev : GpioDevice) : Prop where
  nonneg : 0 ≤ gdev.base
  pos : 0 < gdev.ngpio
  le : gdev.past ≤ INT_MAX

/-- The list is sorted by ranges, and all devices are older than the next one. -/
structure GpioSpace.Sound (s : GpioSpace) : Prop where
  ordered : RangeTable.Ordered GpioDevice.base GpioDevice.past s.devices
  fits : ∀ d ∈ s.devices, d.Fits
  key_lt : ∀ d ∈ s.devices, d.key < s.next

theorem addInt_eq {a b : Int} (h : 0 ≤ a + b) (hle : a + b ≤ INT_MAX) : addInt a b = a + b := by
  unfold INT_MAX at hle
  exact Int.bmod_eq_of_le (by omega) (by omega)

variable {header : GpioHeader} {s : GpioSpace} {gdev d : GpioDevice} {l devices : List GpioDevice}

theorem GpioDevice.Fits.lt (h : gdev.Fits) : gdev.base < gdev.past := by
  have hpos := h.pos
  unfold GpioDevice.past
  omega

theorem GpioDevice.Fits.stop_eq (h : gdev.Fits) : gdev.stop = gdev.past := by
  have hlt := h.lt
  have hnonneg := h.nonneg
  exact addInt_eq (by unfold GpioDevice.past at hlt; omega) h.le

/-! ## Insertion -/

/-- The device has been put between two parts of the list, whose ends leave room for it. -/
def Inserted (devices : List GpioDevice) (gdev : GpioDevice) (l : List GpioDevice) : Prop :=
  ∃ before after, devices = before ++ after ∧ l = before ++ gdev :: after ∧
    (∀ d ∈ before.getLast?, d.stop ≤ gdev.base) ∧ ∀ d ∈ after.head?, gdev.stop ≤ d.base

theorem addBetween_inserted {first : GpioDevice} (h : addBetween gdev (first :: devices) = some l) :
    ∃ before after, devices = before ++ after ∧ l = first :: before ++ gdev :: after ∧
      (∀ d ∈ (first :: before).getLast?, d.stop ≤ gdev.base) ∧
        ∀ d ∈ after.head?, gdev.stop ≤ d.base := by
  induction devices generalizing first l with
  | nil => cases h
  | cons next rest ih =>
    unfold addBetween at h
    split at h
    · rename_i hroom
      refine ⟨[], next :: rest, rfl, (Option.some.inj h).symm, fun d hd => ?_, fun d hd => ?_⟩
      · rw [← Option.some.inj hd]
        exact hroom.1
      · rw [← Option.some.inj hd]
        exact hroom.2
    · obtain ⟨l', hl', rfl⟩ := Option.map_eq_some_iff.mp h
      obtain ⟨before, after, rfl, rfl, hbefore, hafter⟩ := ih hl'
      exact ⟨next :: before, after, rfl, rfl, hbefore, hafter⟩

theorem gpiodevAddToList_inserted (h : gpiodevAddToList devices gdev = some l) :
    Inserted devices gdev l := by
  unfold gpiodevAddToList at h
  split at h
  · exact ⟨[], [], rfl, (Option.some.inj h).symm, nofun, nofun⟩
  · rename_i next rest
    split at h
    · rename_i hfirst
      refine ⟨[], next :: rest, rfl, (Option.some.inj h).symm, nofun, ?_⟩
      intro d hd
      rw [← Option.some.inj hd]
      exact hfirst
    · split at h
      · rename_i hlast
        refine ⟨next :: rest, [], (List.append_nil _).symm, (Option.some.inj h).symm, ?_, nofun⟩
        intro d hd
        rw [List.getLast?_eq_some_getLast (List.cons_ne_nil next rest)] at hd
        rw [← Option.some.inj hd]
        exact hlast
      · obtain ⟨before, after, rfl, hl, hbefore, hafter⟩ := addBetween_inserted h
        exact ⟨next :: before, after, rfl, hl, hbefore, hafter⟩

/-- **Insertion.**  In a sorted list the other devices leave room, too. -/
theorem Inserted.ordered (hi : Inserted devices gdev l)
    (ho : RangeTable.Ordered GpioDevice.base GpioDevice.past devices)
    (hfits : ∀ d ∈ devices, d.Fits) (hg : gdev.Fits) :
    RangeTable.Ordered GpioDevice.base GpioDevice.past l := by
  obtain ⟨before, after, rfl, rfl, hbefore, hafter⟩ := hi
  refine ho.insert ?_ ?_
  · rcases List.eq_nil_or_concat' before with rfl | ⟨front, last, rfl⟩
    · exact nofun
    · have hfront : ∀ d ∈ front ++ [last], d.Fits := fun d hd => hfits d (List.mem_append_left _ hd)
      have hlast := hbefore last (by rw [List.getLast?_concat]; rfl)
      rw [(hfront last (List.mem_append_right _ List.mem_cons_self)).stop_eq] at hlast
      exact (ho.sublist (List.sublist_append_left _ after)).hi_le_of_concat
        (fun d hd => (hfront d hd).lt) hlast
  · cases after with
    | nil => exact nofun
    | cons first rest =>
      have hfirst := hafter first rfl
      rw [hg.stop_eq] at hfirst
      exact (ho.sublist (List.sublist_append_right before _)).le_lo_of_cons
        (fun d hd => (hfits d (List.mem_append_right before hd)).lt) hfirst

theorem Inserted.mem_iff (hi : Inserted devices gdev l) : d ∈ l ↔ d = gdev ∨ d ∈ devices := by
  obtain ⟨before, after, rfl, rfl, -, -⟩ := hi
  rw [List.mem_append, List.mem_cons, List.mem_append]
  tauto

/-- The search over the front part of the list, when the rest of it begins after the range that is
tried. -/
theorem findBaseFrom_free (ngpio : Nat) {later : List GpioDevice} {base : Int}
    (ho : RangeTable.Ordered GpioDevice.base GpioDevice.past (l.reverse ++ later))
    (hfits : ∀ d ∈ l, d.Fits) (hlater : ∀ d ∈ later, base + ngpio ≤ d.base)
    (hbase : base + ngpio ≤ INT_MAX) :
    findBaseFrom ngpio l base + ngpio ≤ INT_MAX ∧
      ∀ d ∈ l.reverse ++ later, d.past ≤ findBaseFrom ngpio l base ∨
        findBaseFrom ngpio l base + ngpio ≤ d.base := by
  induction l generalizing later base with
  | nil => exact ⟨hbase, fun d hd => .inr (hlater d hd)⟩
  | cons gdev rest ih =>
    have hg := hfits gdev List.mem_cons_self
    have hrest : ∀ d ∈ rest, d.Fits := fun d hd => hfits d (List.mem_cons_of_mem gdev hd)
    rw [List.reverse_cons] at ho ⊢
    unfold findBaseFrom
    split
    · rename_i hroom
      rw [hg.stop_eq] at hroom
      refine ⟨hbase, fun d hd => ?_⟩
      rcases List.mem_append.mp hd with hmem | hmem
      · have hlt : ∀ d ∈ rest.reverse ++ [gdev], d.base < d.past := by
          intro d hd
          refine (hfits d ?_).lt
          rw [← List.mem_reverse, List.reverse_cons]
          exact hd
        exact .inl ((ho.sublist (List.sublist_append_left _ _)).hi_le_of_concat hlt hroom d hmem)
      · exact .inr (hlater d hmem)
    · rw [List.append_assoc] at ho ⊢
      have hlt := hg.lt
      have hle := hg.le
      refine ih ho hrest (fun d hd => ?_) (by omega)
      rcases List.mem_cons.mp hd with rfl | hmem
      · omega
      · have hnext := (List.pairwise_cons.mp (List.pairwise_append.mp ho).2.1).1 d hmem
        omega

theorem gpiochipFindBase_free (hh : header.Conforms) (h : s.Sound) {ngpio : Nat}
    (hfound : gpiochipFindBase header s.devices ngpio ≠ -ENOSPC) :
    0 ≤ gpiochipFindBase header s.devices ngpio ∧
      gpiochipFindBase header s.devices ngpio + ngpio ≤ INT_MAX ∧
      ∀ d ∈ s.devices, d.past ≤ gpiochipFindBase header s.devices ngpio ∨
        gpiochipFindBase header s.devices ngpio + ngpio ≤ d.base := by
  have hle := hh.le
  have ho :
      RangeTable.Ordered GpioDevice.base GpioDevice.past (s.devices.reverse.reverse ++ []) := by
    rw [List.reverse_reverse, List.append_nil]
    exact h.ordered
  have htop : header.archNrGpios - ngpio + ngpio ≤ INT_MAX := by omega
  obtain ⟨hmax, hfree⟩ := findBaseFrom_free ngpio ho
    (fun d hd => h.fits d (List.mem_reverse.mp hd)) nofun htop
  rw [List.reverse_reverse, List.append_nil] at hfree
  unfold gpiochipFindBase at hfound ⊢
  dsimp only at hfound ⊢
  by_cases hvalid : header.gpioIsValid
      (findBaseFrom ngpio s.devices.reverse (header.archNrGpios - ngpio)) = true
  · rw [if_pos hvalid]
    exact ⟨((hh.valid _).mp hvalid).1, hmax, hfree⟩
  · rw [if_neg hvalid] at hfound
    exact absurd rfl hfound

/-! ## Steps -/

theorem GpioSpace.Sound.map {s' : GpioSpace} (h : s.Sound) {f : GpioDevice → GpioDevice}
    (hf : ∀ d, (f d).base = d.base ∧ (f d).ngpio = d.ngpio ∧ (f d).key = d.key)
    (hs : s'.devices.Sublist (s.devices.map f)) (hnext : s.next ≤ s'.next) : s'.Sound := by
  have hpast (d : GpioDevice) : (f d).past = d.past := by
    unfold GpioDevice.past
    rw [(hf d).1, (hf d).2.1]
  have ho : RangeTable.Ordered GpioDevice.base GpioDevice.past (s.devices.map f) := by
    refine List.pairwise_map.mpr (h.ordered.imp fun hle => ?_)
    rw [hpast, (hf _).1]
    exact hle
  refine ⟨ho.sublist hs, fun d hd => ?_, fun d hd => ?_⟩
  · obtain ⟨e, he, rfl⟩ := List.mem_map.mp (hs.subset hd)
    have hfits := h.fits e he
    exact ⟨by rw [(hf e).1]; exact hfits.nonneg, by rw [(hf e).2.1]; exact hfits.pos,
      by rw [hpast]; exact hfits.le⟩
  · obtain ⟨e, he, rfl⟩ := List.mem_map.mp (hs.subset hd)
    rw [(hf e).2.2]
    exact (h.key_lt e he).trans_le hnext

theorem update_keeps (key : Nat) (f : GpioDevice → GpioDevice)
    (hf : ∀ d, (f d).base = d.base ∧ (f d).ngpio = d.ngpio ∧ (f d).key = d.key) (d : GpioDevice) :
    (if d.key = key then f d else d).base = d.base ∧
      (if d.key = key then f d else d).ngpio = d.ngpio ∧
      (if d.key = key then f d else d).key = d.key := by
  split
  · exact hf d
  · exact ⟨rfl, rfl, rfl⟩

theorem putDevice_sublist (devices : List GpioDevice) (gdev : GpioDevice) :
    (putDevice devices gdev).Sublist devices ∨
      putDevice devices gdev =
        devices.map fun d => if d.key = gdev.key then { d with refs := d.refs - 1 } else d := by
  unfold putDevice
  split
  · exact .inl List.filter_sublist
  · exact .inr rfl

theorem GpioSpace.Sound.putDevice (h : s.Sound) (gdev : GpioDevice) :
    { s with devices := Gpiolib.putDevice s.devices gdev : GpioSpace }.Sound := by
  rcases putDevice_sublist s.devices gdev with hsub | hmap
  · exact h.map (f := id) (fun _ => ⟨rfl, rfl, rfl⟩) (by rw [List.map_id]; exact hsub) le_rfl
  · refine h.map (update_keeps gdev.key (fun d => { d with refs := d.refs - 1 })
      fun _ => ⟨rfl, rfl, rfl⟩) ?_ le_rfl
    show (Gpiolib.putDevice s.devices gdev).Sublist _
    rw [hmap]

theorem Inserted.listDel (h : Inserted devices gdev l) (hkey : ∀ d ∈ devices, d.key ≠ gdev.key) :
    listDel l gdev.key = devices := by
  obtain ⟨before, after, rfl, rfl, -, -⟩ := h
  have hkeep (part : List GpioDevice) (hpart : ∀ d ∈ part, d.key ≠ gdev.key) :
      part.filter (fun d => d.key ≠ gdev.key) = part :=
    List.filter_eq_self.mpr fun d hd => decide_eq_true (hpart d hd)
  unfold Gpiolib.listDel
  rw [List.filter_append, List.filter_cons_of_neg (by simp),
    hkeep before fun d hd => hkey d (List.mem_append_left after hd),
    hkeep after fun d hd => hkey d (List.mem_append_right before hd)]

/-- What a registration does to the list. -/
inductive AddStep (header : GpioHeader) (s : GpioSpace) (chip : GpioChip) : Int × GpioSpace → Prop
  /-- It fails before the insertion. -/
  | refused (ret : Int) (hret : ret ≠ 0) : AddStep header s chip (ret, s)
  /-- The device is inserted, and stays unless a later step fails. -/
  | inserted (gdev : GpioDevice) (l : List GpioDevice) (hkey : gdev.key = s.next)
    (hngpio : gdev.ngpio = chip.ngpio) (hpos : chip.ngpio ≠ 0) (hnonneg : 0 ≤ gdev.base)
    (hbase : gdev.base = chip.base ∨
      gdev.base = gpiochipFindBase header s.devices chip.ngpio ∧
        gpiochipFindBase header s.devices chip.ngpio ≠ -ENOSPC)
    (hl : gpiodevAddToList s.devices gdev = some l) (ret : Int) :
    AddStep header s chip (ret, { s with
      devices := if ret ≠ 0 then listDel l gdev.key
        else l.map fun d => if d.key = gdev.key then { d with release := s.initialized } else d
      next := s.next + 1 })

/-- What adding a chip does. -/
theorem addStep (header : GpioHeader) (s : GpioSpace) (chip : GpioChip) (o : AddOutcomes) :
    AddStep header s chip (gpiochipAddDataWithKey header s chip o) := by
  unfold gpiochipAddDataWithKey
  split
  · exact .refused _ (by decide)
  split
  · rename_i hid
    exact .refused _ (by omega)
  split
  · exact .refused _ (by decide)
  split
  · exact .refused _ (by decide)
  rename_i hngpio
  split
  · exact .refused _ (by decide)
  dsimp only
  generalize hbase : (if chip.base < 0 then gpiochipFindBase header s.devices chip.ngpio
    else chip.base) = base
  split
  · rename_i hneg
    exact .refused _ (by omega)
  rename_i hnonneg
  have hfrom : base = chip.base ∨ base = gpiochipFindBase header s.devices chip.ngpio ∧
      gpiochipFindBase header s.devices chip.ngpio ≠ -ENOSPC := by
    split at hbase
    · refine .inr ⟨hbase.symm, ?_⟩
      rw [hbase]
      unfold ENOSPC
      omega
    · exact .inl hbase.symm
  split
  · exact .refused _ (by decide)
  rename_i l hl
  have hstep (ret : Int) : AddStep header s chip (ret, { s with
      devices := if ret ≠ 0 then listDel l s.next
        else l.map fun d => if d.key = s.next then { d with release := s.initialized } else d
      next := s.next + 1 }) :=
    .inserted ⟨s.next, base, chip.ngpio, true, 1, false⟩ l rfl rfl hngpio (not_lt.mp hnonneg)
      hfrom hl ret
  split
  · rename_i hret
    have hfail := hstep (o.afterInsertion s.initialized)
    rw [if_pos hret] at hfail
    exact hfail
  · exact hstep 0

theorem Inserted.sound (hi : Inserted s.devices gdev l) (h : s.Sound) (hg : gdev.Fits)
    (hkey : gdev.key = s.next) :
    { s with devices := l, next := s.next + 1 : GpioSpace }.Sound := by
  refine ⟨hi.ordered h.ordered h.fits hg, fun d hd => ?_, fun d hd => ?_⟩
  · rcases hi.mem_iff.mp hd with rfl | hd
    · exact hg
    · exact h.fits d hd
  · rcases hi.mem_iff.mp hd with rfl | hd
    · exact hkey.trans_lt (Nat.lt_succ_self _)
    · exact (h.key_lt d hd).trans (Nat.lt_succ_self _)

theorem GpioSpace.Sound.key_ne (h : s.Sound) (hkey : gdev.key = s.next) :
    ∀ d ∈ s.devices, d.key ≠ gdev.key := by
  intro d hd
  rw [hkey]
  exact (h.key_lt d hd).ne

theorem AddStep.sound {chip : GpioChip} {r : Int × GpioSpace} (hr : AddStep header s chip r)
    (hh : header.Conforms) (h : s.Sound) (hint : chip.base + chip.ngpio ≤ INT_MAX) :
    r.2.Sound := by
  cases hr with
  | refused => exact h
  | inserted gdev l hkey hngpio hpos hnonneg hbase hl ret =>
    have hi := gpiodevAddToList_inserted hl
    have hle : gdev.past ≤ INT_MAX := by
      unfold GpioDevice.past
      rw [hngpio]
      rcases hbase with hbase | ⟨hbase, hfound⟩
      · rw [hbase]
        exact hint
      · rw [hbase]
        exact (gpiochipFindBase_free hh h hfound).2.1
    have hin := hi.sound h ⟨hnonneg, by omega, hle⟩ hkey
    by_cases hret : ret ≠ 0
    · refine h.map (f := id) (fun _ => ⟨rfl, rfl, rfl⟩) ?_ (Nat.le_succ _)
      dsimp only
      rw [if_pos hret, hi.listDel (h.key_ne hkey), List.map_id]
    · refine hin.map (update_keeps gdev.key (fun d => { d with release := s.initialized })
        fun _ => ⟨rfl, rfl, rfl⟩) ?_ le_rfl
      dsimp only
      rw [if_neg hret]

theorem AddStep.failed {chip : GpioChip} {r : Int × GpioSpace} (hr : AddStep header s chip r)
    (h : s.Sound) (hret : r.1 ≠ 0) : r.2.devices = s.devices := by
  cases hr with
  | refused => rfl
  | inserted gdev l hkey hngpio hpos hnonneg hbase hl ret =>
    dsimp only
    rw [if_pos hret]
    exact (gpiodevAddToList_inserted hl).listDel (h.key_ne hkey)

/-- **Every step** keeps the numbers apart. -/
theorem gpioStep_sound (hh : header.Conforms) (s : GpioSpace) (e : GpioEvent) (t : GpioSpace)
    (h : s.Sound) (hint : InInt s e) (hstep : gpioStep header s e = some t) : t.Sound := by
  cases e with
  | add chip o =>
    obtain rfl := Option.some.inj hstep
    exact (addStep header s chip o).sound hh h hint
  | remove key =>
    unfold gpioStep at hstep
    dsimp only at hstep
    split at hstep
    · cases hstep
    · rename_i gdev hfind
      split at hstep
      · obtain rfl := Option.some.inj hstep
        have hgone : ({ s with devices := s.devices.map fun d =>
            if d.key = key then { d with chip := false } else d } : GpioSpace).Sound :=
          h.map (update_keeps key (fun d => { d with chip := false }) fun _ => ⟨rfl, rfl, rfl⟩)
            (List.Sublist.refl _) le_rfl
        exact hgone.putDevice gdev
      · cases hstep
  | get key =>
    unfold gpioStep at hstep
    dsimp only at hstep
    split at hstep
    · cases hstep
    · split at hstep
      · obtain rfl := Option.some.inj hstep
        exact h.map (update_keeps key (fun d => { d with refs := d.refs + 1 })
          fun _ => ⟨rfl, rfl, rfl⟩) (List.Sublist.refl _) le_rfl
      · cases hstep
  | put key =>
    unfold gpioStep at hstep
    dsimp only at hstep
    split at hstep
    · cases hstep
    · rename_i gdev hfind
      split at hstep
      · obtain rfl := Option.some.inj hstep
        exact h.putDevice gdev
      · cases hstep
  | devInit setupDev =>
    unfold gpioStep at hstep
    dsimp only at hstep
    split at hstep
    · cases hstep
    · obtain rfl := Option.some.inj hstep
      exact h.map (f := fun d => { d with release := setupDev d.key = 0 })
        (fun _ => ⟨rfl, rfl, rfl⟩) (List.Sublist.refl _) le_rfl

/-! ## Numbers and descriptors -/

theorem u32_of_fits {n : Int} (hn : 0 ≤ n) (hle : n ≤ INT_MAX) : (Words.u32 n : Int) = n := by
  unfold INT_MAX at hle
  rw [Words.u32_eq hn (by omega), Int.toNat_of_nonneg hn]

theorem GpioDevice.Fits.mem_range (h : gdev.Fits) (gpio : UInt32) :
    (Words.u32 gdev.base ≤ gpio.toNat && gpio.toNat < Words.u32 gdev.stop) = true ↔
      (gpio.toNat : Int) ∈ RangeTable.span gdev.base gdev.past := by
  have hlt := h.lt
  have hle := h.le
  have hnonneg := h.nonneg
  have hbase := u32_of_fits hnonneg (by omega)
  have hpast := u32_of_fits (by omega) hle
  rw [h.stop_eq, Bool.and_eq_true, decide_eq_true_eq, decide_eq_true_eq, RangeTable.mem_span]
  omega

theorem GpioSpace.Sound.table (h : s.Sound) :
    RangeTable.Table (fun d : GpioDevice => RangeTable.span d.base d.past) s.devices :=
  h.ordered.table fun d hd => (h.fits d hd).lt

theorem GpioSpace.Sound.toDesc (h : s.Sound) (gpio : UInt32) (d : GpioDevice) (i : Nat) :
    gpioToDesc s.devices gpio = some (d, i) ↔
      d ∈ s.devices ∧ i < d.ngpio ∧ (gpio.toNat : Int) = d.base + i := by
  have hfind : ∀ e, (s.devices.find? fun e => Words.u32 e.base ≤ gpio.toNat &&
      gpio.toNat < Words.u32 e.stop) = some e ↔
        e ∈ s.devices ∧ (gpio.toNat : Int) ∈ RangeTable.span e.base e.past := fun e =>
    h.table.find?_eq_some_iff fun e he => (h.fits e he).mem_range gpio
  have hlt := gpio.toNat_lt
  unfold gpioToDesc
  rw [Option.map_eq_some_iff]
  constructor
  · rintro ⟨e, he, heq⟩
    obtain ⟨rfl, rfl⟩ := Prod.mk.inj heq
    obtain ⟨hmem, hbase, hpast⟩ := (hfind e).mp he
    have hnonneg := (h.fits e hmem).nonneg
    unfold GpioDevice.past at hpast
    rw [Words.u32_eq (by omega) (by omega)]
    exact ⟨hmem, by omega, by omega⟩
  · rintro ⟨hmem, hi, hn⟩
    have hnonneg := (h.fits d hmem).nonneg
    refine ⟨d, (hfind d).mpr ⟨hmem, ?_⟩, ?_⟩
    · unfold GpioDevice.past
      exact ⟨by omega, by omega⟩
    · rw [Words.u32_eq (by omega) (by omega)]
      congr 1
      omega

theorem GpioSpace.Sound.toDesc_none (h : s.Sound) (gpio : UInt32) :
    gpioToDesc s.devices gpio = none ↔ ∀ d ∈ s.devices, (gpio.toNat : Int) ∉ d.range := by
  unfold gpioToDesc
  rw [Option.map_eq_none_iff, List.find?_eq_none]
  exact forall₂_congr fun d hd => not_congr ((h.fits d hd).mem_range gpio)

theorem GpioDevice.Fits.toGpio (h : gdev.Fits) {i : Nat} (hi : i < gdev.ngpio) :
    descToGpio (gdev, i) = gdev.base + i ∧ 0 ≤ gdev.base + i ∧ gdev.base + i < INT_MAX := by
  have hnonneg := h.nonneg
  have hle := h.le
  unfold GpioDevice.past at hle
  have heq : addInt gdev.base i = gdev.base + i := addInt_eq (by omega) (by omega)
  exact ⟨heq, by omega, by omega⟩

theorem GpioSpace.Sound.toGpio (h : s.Sound) (hd : d ∈ s.devices) {i : Nat} (hi : i < d.ngpio) :
    0 ≤ descToGpio (d, i) ∧
      gpioToDesc s.devices (UInt32.ofNat (descToGpio (d, i)).toNat) = some (d, i) := by
  obtain ⟨heq, hnonneg, hlt⟩ := (h.fits d hd).toGpio hi
  unfold INT_MAX at hlt
  rw [heq, h.toDesc]
  refine ⟨hnonneg, hd, hi, ?_⟩
  rw [UInt32.toNat_ofNat']
  omega

theorem GpioSpace.Sound.held (hh : header.Conforms) (h : s.Sound) : NumbersHeld header s where
  sorted := h.ordered.sorted fun d hd => (h.fits d hd).lt
  disjoint := h.table.disjoint
  findBase ngpio _ _ hfound := by
    obtain ⟨hnonneg, -, hfree⟩ := gpiochipFindBase_free hh h hfound
    refine ⟨hnonneg, fun d hd => ?_⟩
    rcases hfree d hd with hle | hle
    · exact (RangeTable.disjoint_span_of_le hle).symm
    · exact RangeTable.disjoint_span_of_le hle
  unique _ hd _ he _ hn hn' := h.table.eq_of_mem hd he hn hn'
  toDesc := h.toDesc
  toDesc_none := h.toDesc_none
  toGpio _ hd _ hi := h.toGpio hd hi
  failed chip o hret := (addStep header s chip o).failed h hret

/-- **The numbers hold.**  In a run in which no base that is asked for takes a range beyond the
largest `int`, whatever fails and whenever devices are released. -/
theorem numbers_held (hh : header.Conforms) {es : List GpioEvent}
    (hint : Runs.Along (gpioStep header) InInt GpioSpace.start es)
    (hrun : Runs.exec (gpioStep header) GpioSpace.start es = some s) : NumbersHeld header s := by
  have hstart : GpioSpace.start.Sound :=
    ⟨List.Pairwise.nil, nofun, nofun⟩
  exact (Runs.exec_invariant (gpioStep_sound hh) hstart hint hrun).held hh

/-! ## Two runs -/

/-- A header with 512 numbers. -/
def plainHeader : GpioHeader := ⟨512, fun n => 0 ≤ n ∧ n < 512⟩

theorem plainHeader_conforms : plainHeader.Conforms :=
  ⟨fun _ => decide_eq_true_iff, by decide, by decide⟩

/-- A registration in which nothing fails. -/
def allGood : AddOutcomes := ⟨true, 0, true, true, 0, 0, 0, 0, 0, 0, 0, 0, 0⟩

/-- A chip at 0 and two that are found room for, the second in vain; the first of them is removed
while a line is in use, and released later. -/
def plugged : List GpioEvent :=
  [.add ⟨0, 8, by decide, by decide⟩ allGood, .devInit fun _ => 0,
    .add ⟨-1, 16, by decide, by decide⟩ allGood,
    .add ⟨-1, 16, by decide, by decide⟩ { allGood with addIrqchip := -EINVAL },
    .get 1, .remove 1, .put 1]

theorem numbers_held_plugged :
    ∃ s, Runs.exec (gpioStep plainHeader) GpioSpace.start plugged = some s ∧
      NumbersHeld plainHeader s := by
  obtain ⟨s, hs⟩ := Option.isSome_iff_exists.mp (by decide +kernel :
    (Runs.exec (gpioStep plainHeader) GpioSpace.start plugged).isSome = true)
  exact ⟨s, hs, numbers_held plainHeader_conforms (by decide +kernel) hs⟩

/-- A chip that asks for the last number of all. -/
def lastNumber : GpioChip := ⟨INT_MAX, 1, by decide, by decide⟩

/-- The end of such a range is negative: it is put before the chip at 0, and two of them can have
the same number. -/
theorem not_numbers_held :
    (∃ s, Runs.exec (gpioStep plainHeader) GpioSpace.start
        [.add ⟨0, 8, by decide, by decide⟩ allGood, .add lastNumber allGood] = some s ∧
      ¬ NumbersHeld plainHeader s) ∧
    ∃ s, Runs.exec (gpioStep plainHeader) GpioSpace.start
        [.add lastNumber allGood, .add lastNumber allGood] = some s ∧
      ¬ NumbersHeld plainHeader s := by
  constructor
  · refine ⟨⟨[⟨1, INT_MAX, 1, true, 1, false⟩, ⟨0, 0, 8, true, 1, false⟩], false, 2⟩,
      by decide +kernel, fun h => ?_⟩
    exact absurd h.sorted (by decide)
  · refine ⟨⟨[⟨1, INT_MAX, 1, true, 1, false⟩, ⟨0, INT_MAX, 1, true, 1, false⟩], false, 2⟩,
      by decide +kernel, fun h => ?_⟩
    have hsame := h.unique _ List.mem_cons_self _ (List.mem_cons_of_mem _ List.mem_cons_self)
      INT_MAX ⟨le_rfl, by decide⟩ ⟨le_rfl, by decide⟩
    exact absurd hsame (by decide)

end RealtekIpcam.Gpiolib
