import RealtekIpcam.Composite.Interfaces

/-!
# Configurations by index

A host asks for configuration descriptors by index, and takes the number of the configurations from
the device descriptor, or from the device qualifier when it asks for those of the other speed.
`config_desc` goes through the configurations that work at the speed and counts the index down.  It
starts with the configuration of the OS descriptors, wherever that is in the list, and skips it
later.  `count_configs` counts along the list, with its own view of the speed.

Both go by the same configurations: `config_index`.

A configuration is named by its address.  Its identifier is not zero and no other configuration
has it, which `usb_add_config_only` checks; so there are at most 255.
-/

namespace RealtekIpcam.Composite

open Udc (EINVAL)

def EBUSY : Int := 16

def usbDtDevice : UInt8 := 0x01

def usbDtConfig : UInt8 := 0x02

def usbDtDeviceQualifier : UInt8 := 0x06

def usbDtOtherSpeedConfig : UInt8 := 0x07

/-- `enum usb_device_speed`. -/
inductive UsbSpeed where
  | unknown
  | low
  | full
  | high
  | wireless
  | super
  | superPlus
  deriving DecidableEq

/-- `speed >= USB_SPEED_SUPER`. -/
def UsbSpeed.isSuper : UsbSpeed → Bool
  | .super | .superPlus => true
  | _ => false

/-- A configuration is named by the address of its `usb_configuration`. -/
abbrev ConfigId := Nat

/-- `struct usb_configuration`, with the speeds that it supports. -/
structure SpeedConfig extends Configuration where
  fullspeed : Bool
  highspeed : Bool
  superspeed : Bool
  superspeedPlus : Bool

/-- The fields of `cdev->desc` that go into the qualifier, and the packet size of ep0. -/
structure DeviceDescriptor where
  bcdUSB : UInt16
  bDeviceClass : UInt8
  bDeviceSubClass : UInt8
  bDeviceProtocol : UInt8
  ep0Maxpacket : Nat

/-- `struct usb_qualifier_descriptor`. -/
structure QualifierDescriptor where
  bLength : UInt8
  bDescriptorType : UInt8
  bcdUSB : UInt16
  bDeviceClass : UInt8
  bDeviceSubClass : UInt8
  bDeviceProtocol : UInt8
  bMaxPacketSize0 : UInt8
  bNumConfigurations : UInt8
  bRESERVED : UInt8

/-- `struct usb_composite_dev`, as far as the configurations go: the list, the configuration of the
OS descriptors, if there is one, and the speed.  A gadget that runs at super speed is dual speed. -/
structure ConfigTable where
  config : ConfigId → SpeedConfig
  configs : List ConfigId
  osDescConfig : Option ConfigId
  desc : DeviceDescriptor
  speed : UsbSpeed
  isDualspeed : Bool
  value_ne_zero : ∀ c ∈ configs, (config c).bConfigurationValue ≠ 0
  value_nodup : (configs.map fun c => (config c).bConfigurationValue).Nodup
  os_mem : ∀ c ∈ osDescConfig, c ∈ configs
  dualspeed_of_super : speed.isSuper = true → isDualspeed = true

namespace ConfigTable

variable (t : ConfigTable)

/-- `usb_add_config_only`, as far as the list goes. -/
def usbAddConfigOnly (c : ConfigId) : Int × ConfigTable :=
  if hzero : (t.config c).bConfigurationValue = 0 then (-EINVAL, t)
  else if hdup : ∃ d ∈ t.configs,
      (t.config d).bConfigurationValue = (t.config c).bConfigurationValue then (-EBUSY, t)
  else
    (0, { t with
      configs := t.configs ++ [c]
      value_ne_zero := by
        intro d hd
        rcases List.mem_append.mp hd with hd | hd
        · exact t.value_ne_zero d hd
        · exact List.mem_singleton.mp hd ▸ hzero
      value_nodup := by
        rw [List.map_append, List.map_singleton]
        refine List.nodup_append.mpr ⟨t.value_nodup, List.nodup_singleton _, ?_⟩
        intro x hx y hy heq
        obtain ⟨d, hd, hdx⟩ := List.mem_map.mp hx
        exact hdup ⟨d, hd, hdx.trans (heq.trans (List.mem_singleton.mp hy))⟩
      os_mem := fun d hd => List.mem_append_left _ (t.os_mem d hd) })

/-! ## The two functions -/

/-- The speed that `config_desc` goes by. -/
def descSpeed (type : UInt8) : UsbSpeed :=
  if t.speed.isSuper then t.speed
  else if t.isDualspeed then
    let hs := decide (t.speed = .high)
    let hs := if type = usbDtOtherSpeedConfig then !hs else hs
    if hs then .high else .unknown
  else .unknown

/-- The configuration works at the speed. -/
def worksAt (speed : UsbSpeed) (c : ConfigId) : Bool :=
  match speed with
  | .superPlus => (t.config c).superspeedPlus
  | .super => (t.config c).superspeed
  | .high => (t.config c).highspeed
  | _ => (t.config c).fullspeed

/-- The label `check_config`, and what follows it. -/
def checkConfig (speed : UsbSpeed) (c : ConfigId) (index : Nat)
    (next : Nat → Option ConfigId) : Option ConfigId :=
  if !t.worksAt speed c then next index
  else if index = 0 then some c
  else next (index - 1)

/-- The loop of `config_desc`. -/
def searchConfigs (speed : UsbSpeed) : List ConfigId → Nat → Option ConfigId
  | [], _ => none
  | c :: rest, index =>
    if some c = t.osDescConfig then searchConfigs speed rest index
    else t.checkConfig speed c index (searchConfigs speed rest)

/-- The configuration whose descriptor `config_desc` returns. -/
def findConfig (speed : UsbSpeed) (index : Nat) : Option ConfigId :=
  match t.osDescConfig with
  | some c => t.checkConfig speed c index (t.searchConfigs speed t.configs)
  | none => t.searchConfigs speed t.configs index

/-- `config_desc`, with the configuration and the descriptor that is written.  `fillbuf` is as in
`config_buf`. -/
def configDesc (fillbuf : ConfigId → UsbSpeed → Option FnId → Int → Option Int) (vbusDraw : Nat)
    (wValue : Nat) : Int × Option (ConfigId × ConfigDescriptor) :=
  let type := UInt8.ofNat (wValue / 256)
  let speed := t.descSpeed type
  match t.findConfig speed (wValue % 256) with
  | some c =>
    let buf := configBuf (fillbuf c speed) vbusDraw (t.config c).toConfiguration speed.isSuper type
    (buf.1, some (c, buf.2))
  | none => (-EINVAL, none)

def countConfigs (type : UInt8) : Nat :=
  let hs := t.isDualspeed && decide (t.speed = .high)
  let ss := t.isDualspeed && decide (t.speed = .super)
  let ssp := t.isDualspeed && decide (t.speed = .superPlus)
  let hs := if t.isDualspeed ∧ type = usbDtDeviceQualifier then !hs else hs
  t.configs.countP fun c =>
    if ssp then (t.config c).superspeedPlus
    else if ss then (t.config c).superspeed
    else if hs then (t.config c).highspeed
    else (t.config c).fullspeed

def deviceQual : QualifierDescriptor where
  bLength := 10
  bDescriptorType := usbDtDeviceQualifier
  bcdUSB := t.desc.bcdUSB
  bDeviceClass := t.desc.bDeviceClass
  bDeviceSubClass := t.desc.bDeviceSubClass
  bDeviceProtocol := t.desc.bDeviceProtocol
  bMaxPacketSize0 := UInt8.ofNat t.desc.ep0Maxpacket
  bNumConfigurations := UInt8.ofNat (t.countConfigs usbDtDeviceQualifier)
  bRESERVED := 0

/-- The speed a host asks for: the current one, or the other of full and high speed, which only a
dual speed gadget below super speed has. -/
def askedSpeed (other : Bool) : UsbSpeed :=
  if other ∧ t.isDualspeed ∧ t.speed.isSuper = false then
    if t.speed = .high then .full else .high
  else if t.isDualspeed then t.speed
  else .full

def askedType (other : Bool) : UInt8 := if other then usbDtOtherSpeedConfig else usbDtConfig

/-- The number of configurations that the host has been told. -/
def toldCount (other : Bool) : Nat :=
  if other then t.deviceQual.bNumConfigurations.toNat else t.countConfigs usbDtDevice

variable {t} {speed : UsbSpeed} {index : Nat}

/-! ## The search -/

theorem checkConfig_eq (c : ConfigId) (l : List ConfigId) :
    t.checkConfig speed c index (fun k => (l.filter (t.worksAt speed))[k]?) =
      ((c :: l).filter (t.worksAt speed))[index]? := by
  unfold checkConfig
  cases hworks : t.worksAt speed c with
  | false => simp [hworks]
  | true =>
    rw [List.filter_cons_of_pos hworks]
    cases index with
    | zero => simp
    | succ index => simp

/-- The order in which the configurations are looked at. -/
def searchOrder (t : ConfigTable) : List ConfigId :=
  match t.osDescConfig with
  | some c => c :: t.configs.filter (· ≠ c)
  | none => t.configs

theorem searchConfigs_eq (l : List ConfigId) (index : Nat) :
    t.searchConfigs speed l index =
      ((l.filter fun c => some c ≠ t.osDescConfig).filter (t.worksAt speed))[index]? := by
  induction l generalizing index with
  | nil => simp [searchConfigs]
  | cons c l ih =>
    rw [searchConfigs]
    by_cases hos : some c = t.osDescConfig
    · rw [if_pos hos, ih, List.filter_cons_of_neg (by simp [hos])]
    · rw [if_neg hos, List.filter_cons_of_pos (by simp [hos]), ← checkConfig_eq]
      exact congrArg (t.checkConfig speed c index) (funext ih)

theorem findConfig_eq (speed : UsbSpeed) (index : Nat) :
    t.findConfig speed index = (t.searchOrder.filter (t.worksAt speed))[index]? := by
  unfold findConfig searchOrder
  cases hos : t.osDescConfig with
  | none => simp [searchConfigs_eq, hos]
  | some o =>
    have hsearch : t.searchConfigs speed t.configs =
        fun k => ((t.configs.filter (· ≠ o)).filter (t.worksAt speed))[k]? := by
      funext k
      simp [searchConfigs_eq, hos]
    dsimp only
    rw [hsearch, checkConfig_eq]

theorem configs_nodup (t : ConfigTable) : t.configs.Nodup := t.value_nodup.of_map _

theorem searchOrder_perm (t : ConfigTable) : t.searchOrder.Perm t.configs := by
  unfold searchOrder
  cases hos : t.osDescConfig with
  | none => exact List.Perm.refl _
  | some o =>
    have herase : t.configs.erase o = t.configs.filter (· ≠ o) := by
      rw [t.configs_nodup.erase_eq_filter]
      congr 1
      funext c
      by_cases hc : c = o <;> simp [hc]
    dsimp only
    rw [← herase]
    exact (List.perm_cons_erase (t.os_mem o (hos ▸ rfl))).symm

theorem length_configs_le (t : ConfigTable) : t.configs.length ≤ 255 := by
  have hnodup : (t.configs.map fun c => (t.config c).bConfigurationValue.toNat).Nodup := by
    have hmap := t.value_nodup.map (f := UInt8.toNat) fun _ _ h => UInt8.toNat_inj.mp h
    rwa [List.map_map] at hmap
  have hsub : (t.configs.map fun c => (t.config c).bConfigurationValue.toNat) ⊆
      List.range' 1 255 := by
    intro v hv
    obtain ⟨c, hc, rfl⟩ := List.mem_map.mp hv
    have hne : (t.config c).bConfigurationValue.toNat ≠ 0 := fun h =>
      t.value_ne_zero c hc (UInt8.toNat_inj.mp h)
    have hlt := (t.config c).bConfigurationValue.toNat_lt
    exact List.mem_range'_1.mpr (by omega)
  have hle := (hnodup.subperm hsub).length_le
  simpa using hle

theorem countConfigs_eq (other : Bool) :
    t.countConfigs (if other then usbDtDeviceQualifier else usbDtDevice) =
      t.configs.countP (t.worksAt (t.askedSpeed other)) := by
  unfold countConfigs askedSpeed
  refine List.countP_congr fun c _ => ?_
  have hsuper := t.dualspeed_of_super
  cases other <;> cases hdual : t.isDualspeed <;> cases hspeed : t.speed <;>
    simp_all [worksAt, UsbSpeed.isSuper, usbDtDeviceQualifier, usbDtDevice]

theorem toldCount_eq (other : Bool) :
    t.toldCount other = t.configs.countP (t.worksAt (t.askedSpeed other)) := by
  have hle := (List.countP_le_length (p := t.worksAt (t.askedSpeed true))).trans t.length_configs_le
  have hcount := countConfigs_eq (t := t) other
  cases other with
  | false => exact hcount
  | true =>
    rw [← hcount] at hle ⊢
    exact UInt8.toNat_ofNat_of_lt' (Nat.lt_succ_of_le hle)

theorem worksAt_descSpeed (other : Bool) :
    t.worksAt (t.descSpeed (askedType other)) = t.worksAt (t.askedSpeed other) := by
  funext c
  have hsuper := t.dualspeed_of_super
  unfold descSpeed askedSpeed askedType
  cases other <;> cases hdual : t.isDualspeed <;> cases hspeed : t.speed <;>
    simp_all [worksAt, UsbSpeed.isSuper, usbDtOtherSpeedConfig, usbDtConfig]

theorem configDesc_config (fillbuf : ConfigId → UsbSpeed → Option FnId → Int → Option Int)
    (vbusDraw : Nat) (other : Bool) {i : Nat} (hi : i < 256) :
    (t.configDesc fillbuf vbusDraw ((askedType other).toNat * 256 + i)).2.map Prod.fst =
      (t.searchOrder.filter (t.worksAt (t.askedSpeed other)))[i]? := by
  have htype : UInt8.ofNat (((askedType other).toNat * 256 + i) / 256) = askedType other := by
    rw [Nat.mul_comm, Nat.mul_add_div (by decide), Nat.div_eq_of_lt hi]
    exact UInt8.ofNat_toNat
  have hindex : ((askedType other).toNat * 256 + i) % 256 = i := by
    rw [Nat.mul_comm, Nat.mul_add_mod, Nat.mod_eq_of_lt hi]
  rw [← worksAt_descSpeed, ← findConfig_eq]
  simp only [configDesc, htype, hindex]
  cases t.findConfig (t.descSpeed (askedType other)) i <;> rfl

theorem configDesc_of_none {fillbuf : ConfigId → UsbSpeed → Option FnId → Int → Option Int}
    {vbusDraw wValue : Nat} (h : (t.configDesc fillbuf vbusDraw wValue).2 = none) :
    t.configDesc fillbuf vbusDraw wValue = (-EINVAL, none) := by
  unfold configDesc at h ⊢
  cases hfind : t.findConfig (t.descSpeed (UInt8.ofNat (wValue / 256))) (wValue % 256) with
  | none => simp [hfind]
  | some c => simp [hfind] at h

end ConfigTable

open ConfigTable

/-- **The indices and the count.**  Below the count the indices go through the configurations that
work at the speed, each once; from there on there are none. -/
theorem config_index (t : ConfigTable)
    (fillbuf : ConfigId → UsbSpeed → Option FnId → Int → Option Int) (vbusDraw : Nat)
    (other : Bool) :
    ((List.range (t.toldCount other)).map fun i =>
      (t.configDesc fillbuf vbusDraw ((askedType other).toNat * 256 + i)).2.map Prod.fst).Perm
        ((t.configs.filter (t.worksAt (t.askedSpeed other))).map some) ∧
    ∀ i, t.toldCount other ≤ i → i < 256 →
      t.configDesc fillbuf vbusDraw ((askedType other).toNat * 256 + i) = (-EINVAL, none) := by
  have hperm := t.searchOrder_perm.filter (t.worksAt (t.askedSpeed other))
  have hcount : t.toldCount other =
      (t.searchOrder.filter (t.worksAt (t.askedSpeed other))).length := by
    rw [toldCount_eq, List.countP_eq_length_filter, hperm.length_eq]
  have hlt : t.toldCount other < 256 := by
    rw [toldCount_eq]
    exact Nat.lt_succ_of_le (List.countP_le_length.trans t.length_configs_le)
  refine ⟨?_, fun i hle hi => ?_⟩
  · have hlist : (List.range (t.toldCount other)).map (fun i =>
        (t.configDesc fillbuf vbusDraw ((askedType other).toNat * 256 + i)).2.map Prod.fst) =
          (t.searchOrder.filter (t.worksAt (t.askedSpeed other))).map some := by
      refine List.ext_getElem (by simp [hcount]) fun i hi _ => ?_
      have hi' : i < t.toldCount other := by simpa using hi
      rw [List.getElem_map, List.getElem_map, List.getElem_range,
        configDesc_config fillbuf vbusDraw other (hi'.trans hlt)]
      exact List.getElem?_eq_getElem (hcount ▸ hi')
    rw [hlist]
    exact hperm.map some
  · have hnone := configDesc_config (t := t) fillbuf vbusDraw other hi
    rw [List.getElem?_eq_none (hcount ▸ hle), Option.map_eq_none_iff] at hnone
    exact configDesc_of_none hnone

end RealtekIpcam.Composite
