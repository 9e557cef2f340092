import RealtekIpcam.Pinctrl.MuxLeaks

/-!
# The states of a device

A device has a number of named states, each a list of settings: mux groups to enable and
configurations to apply, at one or at several pin controllers.  `pinctrl_select_state` takes the old
state's mux groups down and goes through the settings of the new state; if one of them fails,
it takes down those before it, and selects the old state again, which may fail too.

`Core` is the system: all pin controllers, and the selected state of every device.  `Held` is what
holds of a device in the middle of it all: the claims of its name are the pins of a list of
settings, and nobody else's pins have moved.  Every loop either lengthens that list or shortens it.

The configuration of pins is not among the sources; it is a parameter that may do what it likes to
the driver behind the pins.
-/

namespace RealtekIpcam.Pinctrl

open Function

variable {δ : Type}

/-! ## The model -/

/-- The `type` and `data` of a `struct pinctrl_setting`.  A configuration, of a pin or of a group,
is a number that says which. -/
inductive SettingData where
  | muxGroup (mux : PinctrlSetting)
  | configs (which : Nat)
  | invalid
  deriving DecidableEq

/-- `struct pinctrl_setting`: the controller it is for, and what it sets. -/
structure StateSetting where
  pctldev : Nat
  data : SettingData
  deriving DecidableEq

/-- The settings of every state of every device. -/
abbrev States := String → Nat → List StateSetting

/-- The drivers: the callbacks of each controller, and `pinconf_apply_setting`. -/
structure PinDrivers (δ : Type) where
  pmxops : Nat → PinmuxOps δ
  pinconfApplySetting : Nat → δ → Nat → Int × δ

/-- The pin controllers, and `p->state` of every device's handle. -/
structure Core (δ : Type) where
  pctldev : Nat → PinctrlDev δ
  state : String → Option Nat

def Core.setDev (core : Core δ) (i : Nat) (dev : PinctrlDev δ) : Core δ :=
  { core with pctldev := update core.pctldev i dev }

def Core.setState (core : Core δ) (p : String) (state : Option Nat) : Core δ :=
  { core with state := update core.state p state }

namespace PinDrivers

variable (drivers : PinDrivers δ)

/-- The `switch` of `pinctrl_commit_state`. -/
def applySetting (core : Core δ) (setting : StateSetting) : Int × Core δ :=
  let dev := core.pctldev setting.pctldev
  match setting.data with
  | .muxGroup mux =>
    let (ret, dev) := (drivers.pmxops setting.pctldev).pinmuxEnableSetting dev mux
    (ret, core.setDev setting.pctldev dev)
  | .configs which =>
    let (ret, drv) := drivers.pinconfApplySetting setting.pctldev dev.drv which
    (ret, core.setDev setting.pctldev { dev with drv := drv })
  | .invalid => (-EINVAL, core)

/-- The loop that applies settings.  It also returns those that were applied. -/
def applySettings : Core δ → List StateSetting → List StateSetting →
    Int × List StateSetting × Core δ
  | core, applied, [] => (0, applied, core)
  | core, applied, setting :: settings =>
    let (ret, core) := drivers.applySetting core setting
    if ret < 0 then (ret, applied, core)
    else applySettings core (applied ++ [setting]) settings

/-- The two loops that disable the mux settings among settings. -/
def disableSettings : Core δ → List StateSetting → Core δ
  | core, [] => core
  | core, setting :: settings =>
    match setting.data with
    | .muxGroup mux =>
      let dev := core.pctldev setting.pctldev
      let dev := (drivers.pmxops setting.pctldev).pinmuxDisableSetting dev mux
      disableSettings (core.setDev setting.pctldev dev) settings
    | _ => disableSettings core settings

variable (states : States)

/-- The first part of `pinctrl_commit_state`: the old state's mux settings are disabled, and
`p->state` is NULL. -/
def leaveState (core : Core δ) (p : String) : Core δ :=
  let core := match core.state p with
    | none => core
    | some oldState => drivers.disableSettings core (states p oldState)
  core.setState p none

/-- `pinctrl_commit_state` from where `p->state` is NULL, up to where it returns to the old state.
-/
def applyState (core : Core δ) (p : String) (state : Nat) : Int × Core δ :=
  let (ret, applied, core) := drivers.applySettings core [] (states p state)
  if ret < 0 then (ret, drivers.disableSettings core applied)
  else (0, core.setState p (some state))

/-- `pinctrl_commit_state`.  To select the old state again is to apply it, since `p->state` is NULL:
see `commitStateWithin_eq`. -/
def pinctrlCommitState (core : Core δ) (p : String) (state : Nat) : Int × Core δ :=
  let oldState := core.state p
  let (ret, core) := drivers.applyState states (drivers.leaveState states core p) p state
  if ret < 0 then
    match oldState with
    | none => (ret, core)
    | some oldState => (ret, (drivers.applyState states core p oldState).2)
  else (0, core)

def pinctrlSelectState (core : Core δ) (p : String) (state : Nat) : Int × Core δ :=
  if core.state p = some state then (0, core) else drivers.pinctrlCommitState states core p state

/-- `pinctrl_commit_state` as it calls `pinctrl_select_state` and so itself, to a depth of calls. -/
def commitStateWithin : Nat → Core δ → String → Nat → Option (Int × Core δ)
  | 0, _, _, _ => none
  | depth + 1, core, p, state =>
    let oldState := core.state p
    let (ret, applied, core) :=
      drivers.applySettings (drivers.leaveState states core p) [] (states p state)
    if ret < 0 then
      let core := drivers.disableSettings core applied
      match oldState with
      | none => some (ret, core)
      | some oldState =>
        -- `pinctrl_select_state`
        if core.state p = some oldState then some (ret, core)
        else (commitStateWithin depth core p oldState).map fun r => (ret, r.2)
    else some (0, core.setState p (some state))

end PinDrivers

/-! ## What may be assumed -/

/-- What the documentation of `struct pinmux_ops` asks of a driver: an answer is 0 or a negative
error code.  And the number of pins of a group is an `unsigned`. -/
structure PinmuxOps.Conforms (ops : PinmuxOps δ) : Prop where
  request : ∀ request, ops.request = some request → ∀ drv pin, (request drv pin).1 ≤ 0
  setMux : ∀ drv func group, (ops.setMux drv func group).1 ≤ 0
  numPins : ∀ group, (ops.groupPins group).length < 2 ^ 32

namespace PinDrivers

variable (drivers : PinDrivers δ)

/-- The pins of a setting at a controller: those of its group, if it is a mux group and is for that
controller. -/
def pins (setting : StateSetting) (i : Nat) : List Nat :=
  match setting.data with
  | .muxGroup mux =>
    if setting.pctldev = i then (drivers.pmxops i).groupPins mux.group else []
  | _ => []

/-- The pins of some settings at a controller. -/
def pinsAt (settings : List StateSetting) (i : Nat) : List Nat :=
  settings.flatMap fun setting => drivers.pins setting i

/-- The mux groups of the settings have no pin in common. -/
def GroupsDisjoint (settings : List StateSetting) : Prop :=
  settings.Pairwise fun s t => ∀ i, (drivers.pins s i).Disjoint (drivers.pins t i)

/-- The pins of the setting carry it as their `mux_setting`. -/
def Marked (core : Core δ) (setting : StateSetting) : Prop :=
  ∀ mux, setting.data = .muxGroup mux → ∀ pin ∈ drivers.pins setting setting.pctldev,
    (core.pctldev setting.pctldev).muxSetting pin = some mux

end PinDrivers

/-- The settings of the device's name. -/
def Named (p : String) (settings : List StateSetting) : Prop :=
  ∀ setting ∈ settings, ∀ mux, setting.data = .muxGroup mux → mux.devName = p

/-- The states are well formed: a device's settings carry its name, as `create_pinctrl` makes them,
and the mux groups within one state are disjoint. -/
structure States.WellFormed (states : States) (drivers : PinDrivers δ) : Prop where
  named : ∀ p state, Named p (states p state)
  disjoint : ∀ p state, drivers.GroupsDisjoint (states p state)

/-- The settings of `p->state`, none if it is NULL. -/
def Core.settings (core : Core δ) (states : States) (p : String) : List StateSetting :=
  match core.state p with
  | none => []
  | some state => states p state

/-! ## One group at one controller -/

section Controller

variable {ops : PinmuxOps δ} {dev : PinctrlDev δ} {claims : List Claim} {pin q : Nat}
  {owner : String} {pins taken : List Nat} {setting : PinctrlSetting}

theorem pinAcquire_le (hops : ops.Conforms) (drv : δ) (pin : Nat) :
    (ops.pinAcquire drv pin false).1 ≤ 0 := by
  unfold PinmuxOps.pinAcquire
  cases hget : ops.tryModuleGet drv with
  | mk granted drv =>
    cases granted with
    | false => exact (by decide : (-EINVAL : Int) ≤ 0)
    | true =>
      cases hrequest : ops.request with
      | none => exact Int.le_refl 0
      | some request =>
        have hle := hops.request request hrequest drv pin
        dsimp only
        split
        · exact hle
        · exact Int.le_refl 0

theorem pinRequest_le (hops : ops.Conforms) (dev : PinctrlDev δ) (pin : Nat) (owner : String) :
    (ops.pinRequest dev pin owner false).1 ≤ 0 := by
  have hinval : (-EINVAL : Int) ≤ 0 := by decide
  have hacquire := pinAcquire_le hops dev.drv pin
  unfold PinmuxOps.pinRequest
  cases dev.desc pin with
  | none => exact hinval
  | some d =>
    simp only [Bool.false_eq_true, if_false]
    split
    · exact hinval
    split
    · exact hinval
    split
    · exact Int.le_refl 0
    split
    · exact hacquire
    · exact Int.le_refl 0

theorem requestPins_le (hops : ops.Conforms) (owner : String) (dev : PinctrlDev δ)
    (pins taken : List Nat) : (ops.requestPins owner dev pins taken).1 ≤ 0 := by
  induction pins generalizing dev taken with
  | nil => exact Int.le_refl 0
  | cons pin pins ih =>
    unfold PinmuxOps.requestPins
    dsimp only
    split
    · exact pinRequest_le hops dev pin owner
    · exact ih _ _

theorem pinmuxEnableSetting_le (hops : ops.Conforms) (dev : PinctrlDev δ)
    (setting : PinctrlSetting) : (ops.pinmuxEnableSetting dev setting).1 ≤ 0 := by
  unfold PinmuxOps.pinmuxEnableSetting
  dsimp only
  split
  · exact requestPins_le hops _ _ _ _
  split
  · exact hops.setMux _ _ _
  · exact Int.le_refl 0

theorem pinRequest_desc_of_ne (hq : q ≠ pin) :
    (ops.pinRequest dev pin owner false).2.desc q = dev.desc q := by
  have hset (drv : δ) (d : PinDesc) :
      ({ dev with drv := drv }.setDesc pin d).desc q = dev.desc q :=
    (PinctrlDev.setDesc_desc _ _ _ q).trans (if_neg hq)
  unfold PinmuxOps.pinRequest
  cases dev.desc pin with
  | none => rfl
  | some d =>
    simp only [Bool.false_eq_true, if_false]
    split
    · rfl
    split
    · rfl
    split
    · exact hset dev.drv _
    split
    · exact hset _ _
    · exact hset _ _

theorem pinFree_desc_of_ne (hq : q ≠ pin) :
    (ops.pinFree dev pin false).2.desc q = dev.desc q := by
  have hfree := muxFree ops dev pin
  generalize (ops.pinFree dev pin false).2 = dev' at hfree
  cases hfree with
  | idle _ => rfl
  | shared d hd hclaimed hmore => exact (PinctrlDev.setDesc_desc _ _ _ q).trans (if_neg hq)
  | last d hd hlast => exact (PinctrlDev.setDesc_desc _ _ _ q).trans (if_neg hq)

theorem requestPins_desc_of_notMem (hq : q ∉ pins) :
    (ops.requestPins owner dev pins taken).2.2.desc q = dev.desc q := by
  induction pins generalizing dev taken with
  | nil => rfl
  | cons pin pins ih =>
    obtain ⟨hne, hnotin⟩ := not_or.mp (mt List.mem_cons.mpr hq)
    unfold PinmuxOps.requestPins
    dsimp only
    split
    · exact pinRequest_desc_of_ne hne
    · exact (ih hnotin).trans (pinRequest_desc_of_ne hne)

theorem disablePins_desc_of_notMem (hq : q ∉ pins) :
    (ops.disablePins setting dev pins).desc q = dev.desc q := by
  induction pins generalizing dev with
  | nil => rfl
  | cons pin pins ih =>
    obtain ⟨hne, hnotin⟩ := not_or.mp (mt List.mem_cons.mpr hq)
    unfold PinmuxOps.disablePins
    cases dev.desc pin with
    | none => exact ih hnotin
    | some d =>
      dsimp only
      split
      · exact (ih hnotin).trans (pinFree_desc_of_ne hne)
      · exact ih hnotin

theorem Booked.roomFor (h : Booked dev claims) (hlen : pins.length < 2 ^ 32)
    (hnew : ∀ c ∈ claims, c.1 ∈ pins → c.2 ≠ owner) : RoomFor owner pins claims := by
  intro p hp
  by_cases hmem : p ∈ pins
  · have hzero : claimed claims p = 0 := by
      by_contra hne
      obtain ⟨c, hc, rfl⟩ := exists_claim hne
      exact hnew c hc hmem (hp c hc rfl)
    have hle := List.count_le_length (a := p) (l := pins)
    omega
  · rw [List.count_eq_zero_of_not_mem hmem, Nat.zero_add]
    exact h.hasRoom_self p

theorem Booked.muxSetting_none (h : Booked dev claims) (hp : ∀ c ∈ claims, c.1 ≠ pin) :
    dev.muxSetting pin = none := by
  unfold PinctrlDev.muxSetting
  cases hd : dev.desc pin with
  | none => rfl
  | some d =>
    refine (h.free pin d hd (BitVec.eq_of_toNat_eq ?_)).2
    rw [h.usecount pin d hd]
    by_contra hne
    obtain ⟨c, hc, rfl⟩ := exists_claim hne
    exact hp c hc rfl

/-- **Enabling, to the end.**  The pins of the group become the device's, muxed by the setting, and
nobody had any of them; the other pins stay as they are. -/
theorem enable_zero (h : Booked dev claims) (hops : ops.Conforms)
    (hnew : ∀ c ∈ claims, c.1 ∈ ops.groupPins setting.group → c.2 ≠ setting.devName)
    (hret : (ops.pinmuxEnableSetting dev setting).1 = 0) :
    Booked (ops.pinmuxEnableSetting dev setting).2
        (claimsOf setting.devName (ops.groupPins setting.group) ++ claims) ∧
      (∀ pin ∈ ops.groupPins setting.group,
        (ops.pinmuxEnableSetting dev setting).2.muxSetting pin = some setting) ∧
      (∀ q, q ∉ ops.groupPins setting.group →
        (ops.pinmuxEnableSetting dev setting).2.desc q = dev.desc q) ∧
      ∀ c ∈ claims, c.1 ∉ ops.groupPins setting.group := by
  have hroom := h.roomFor (hops.numPins setting.group) hnew
  obtain ⟨more, -, -, -, hall⟩ := freePins_requestPins ops h [] hroom
  have hframe (q : Nat) (hq : q ∉ ops.groupPins setting.group) :
      (ops.requestPins setting.devName dev (ops.groupPins setting.group) []).2.2.desc q =
        dev.desc q := requestPins_desc_of_notMem hq
  have hreq : (ops.requestPins setting.devName dev (ops.groupPins setting.group) []).1 = 0 := by
    by_contra hne
    unfold PinmuxOps.pinmuxEnableSetting at hret
    dsimp only at hret
    rw [if_pos hne] at hret
    exact hne hret
  have hfree : ∀ c ∈ claims, c.1 ∉ ops.groupPins setting.group :=
    fun c hc hmem => hnew c hc hmem (hall hreq c hc hmem)
  have hbook : Booked (ops.pinmuxEnableSetting dev setting).2
      (claimsOf setting.devName (ops.groupPins setting.group) ++ claims) := by
    refine ((bookKeeper ops).enable setting h fun p => ?_).2 hret
    rw [claimed_append, claimed_claimsOf]
    by_cases hmem : ∃ c ∈ claims, c.1 = p
    · obtain ⟨c, hc, rfl⟩ := hmem
      rw [List.count_eq_zero_of_not_mem (hfree c hc), Nat.zero_add]
      exact h.hasRoom_self c.1
    · exact hroom p fun c hc heq => absurd ⟨c, hc, heq⟩ hmem
  have hdesc (q : Nat) : (ops.pinmuxEnableSetting dev setting).2.desc q =
      ((ops.requestPins setting.devName dev (ops.groupPins setting.group) []).2.2.desc q).map
        fun d => if q ∈ ops.groupPins setting.group then { d with muxSetting := some setting }
          else d := by
    unfold PinmuxOps.pinmuxEnableSetting at hret ⊢
    dsimp only at hret ⊢
    rw [if_neg (not_not_intro hreq)] at hret ⊢
    split
    · rename_i hmux
      rw [if_pos hmux] at hret
      exact absurd hret hmux
    · exact markPins_desc _ _ _ q
  refine ⟨hbook, fun pin hpin => ?_, fun q hq => ?_, hfree⟩
  · obtain ⟨d, hd, -⟩ := hbook.owner (pin, setting.devName)
      (List.mem_append_left _ (List.mem_map_of_mem hpin))
    unfold PinctrlDev.muxSetting
    rw [hdesc pin] at hd ⊢
    obtain ⟨e, he, -⟩ := Option.map_eq_some_iff.mp hd
    rw [he, Option.map_some, if_pos hpin]
    rfl
  · rw [hdesc q, hframe q hq]
    simp [hq]

theorem enable_ne_zero (h : Booked dev claims) (hops : ops.Conforms)
    (hnew : ∀ c ∈ claims, c.1 ∈ ops.groupPins setting.group → c.2 ≠ setting.devName)
    (hret : (ops.pinmuxEnableSetting dev setting).1 ≠ 0) :
    (ops.pinmuxEnableSetting dev setting).2.desc = dev.desc := by
  have hroom := h.roomFor (hops.numPins setting.group) hnew
  obtain ⟨more, -, -, -, hall⟩ := freePins_requestPins ops h [] hroom
  refine enable_desc_of_ne h hroom (fun hrefuse pin hpin => ?_) hret
  refine h.muxSetting_none ?_
  rintro c hc rfl
  exact hnew c hc hpin (hall hrefuse.1 c hc hpin)

end Controller

/-! ## What a device holds -/

section Held

variable {drivers : PinDrivers δ} {states : States} {core core₀ core' : Core δ} {p q : String}
  {others : Nat → List Claim} {settings held applied : List StateSetting} {setting : StateSetting}
  {mux : PinctrlSetting} {dev : PinctrlDev δ} {i pin : Nat}

@[simp] theorem Core.setDev_self (core : Core δ) (i : Nat) (dev : PinctrlDev δ) :
    (core.setDev i dev).pctldev i = dev := by
  show update core.pctldev i dev i = dev
  rw [update_self]

theorem Core.setDev_of_ne {j : Nat} (hj : j ≠ i) :
    (core.setDev i dev).pctldev j = core.pctldev j := by
  show update core.pctldev i dev j = _
  rw [update_of_ne hj]

@[simp] theorem Core.setState_self (core : Core δ) (p : String) (state : Option Nat) :
    (core.setState p state).state p = state := by
  show update core.state p state p = state
  rw [update_self]

theorem Core.setState_of_ne {state : Option Nat} (hq : q ≠ p) :
    (core.setState p state).state q = core.state q := by
  show update core.state p state q = _
  rw [update_of_ne hq]

theorem pins_mux (hdata : setting.data = .muxGroup mux) :
    drivers.pins setting setting.pctldev =
      (drivers.pmxops setting.pctldev).groupPins mux.group := by
  unfold PinDrivers.pins
  rw [hdata]
  exact if_pos rfl

theorem pins_of_ne (hi : i ≠ setting.pctldev) : drivers.pins setting i = [] := by
  unfold PinDrivers.pins
  cases setting.data with
  | muxGroup mux => exact if_neg (Ne.symm hi)
  | configs which => rfl
  | invalid => rfl

theorem pins_noMux (hdata : ∀ mux, setting.data ≠ .muxGroup mux) :
    drivers.pins setting i = [] := by
  unfold PinDrivers.pins
  cases hd : setting.data with
  | muxGroup mux => exact absurd hd (hdata mux)
  | configs which => rfl
  | invalid => rfl

theorem pinsAt_cons (setting : StateSetting) (settings : List StateSetting) (i : Nat) :
    drivers.pinsAt (setting :: settings) i = drivers.pins setting i ++ drivers.pinsAt settings i :=
  List.flatMap_cons

theorem pinsAt_append (settings settings' : List StateSetting) (i : Nat) :
    drivers.pinsAt (settings ++ settings') i =
      drivers.pinsAt settings i ++ drivers.pinsAt settings' i :=
  List.flatMap_append

theorem mem_pinsAt : pin ∈ drivers.pinsAt settings i ↔
    ∃ setting ∈ settings, pin ∈ drivers.pins setting i :=
  List.mem_flatMap

theorem marked_of_desc (h : drivers.Marked core setting)
    (hdesc : ∀ pin ∈ drivers.pins setting setting.pctldev,
      (core'.pctldev setting.pctldev).desc pin = (core.pctldev setting.pctldev).desc pin) :
    drivers.Marked core' setting := by
  intro mux hmux pin hpin
  unfold PinctrlDev.muxSetting
  rw [hdesc pin hpin]
  exact h mux hmux pin hpin

/-- **What a device holds.**  Its claims are the pins of `held`, which carry their settings; the
other claims, and the descriptors of their pins, are those of `core₀`. -/
structure Held (drivers : PinDrivers δ) (p : String) (others : Nat → List Claim)
    (core₀ : Core δ) (held : List StateSetting) (core : Core δ) : Prop where
  booked : ∀ i, Booked (core.pctldev i) (claimsOf p (drivers.pinsAt held i) ++ others i)
  marked : ∀ setting ∈ held, drivers.Marked core setting
  frame : ∀ i, ∀ c ∈ others i, (core.pctldev i).desc c.1 = (core₀.pctldev i).desc c.1

/-- None of these claims is the device's. -/
def Foreign (p : String) (others : Nat → List Claim) : Prop := ∀ i, ∀ c ∈ others i, c.2 ≠ p

theorem Held.setState (h : Held drivers p others core₀ held core) (state : Option Nat) :
    Held drivers p others core₀ held (core.setState p state) :=
  ⟨h.booked, h.marked, h.frame⟩

theorem Held.setDev (h : Held drivers p others core₀ held core)
    (hbook : Booked dev (claimsOf p (drivers.pinsAt settings i) ++ others i))
    (hpins : ∀ j, j ≠ i → drivers.pinsAt settings j = drivers.pinsAt held j)
    (hmark : ∀ setting ∈ settings, drivers.Marked (core.setDev i dev) setting)
    (hframe : ∀ c ∈ others i, dev.desc c.1 = (core.pctldev i).desc c.1) :
    Held drivers p others core₀ settings (core.setDev i dev) := by
  refine ⟨fun j => ?_, hmark, fun j c hc => ?_⟩
  · by_cases hj : j = i
    · subst hj
      rw [Core.setDev_self]
      exact hbook
    · rw [Core.setDev_of_ne hj, hpins j hj]
      exact h.booked j
  · by_cases hj : j = i
    · subst hj
      rw [Core.setDev_self, hframe c hc]
      exact h.frame j c hc
    · rw [Core.setDev_of_ne hj]
      exact h.frame j c hc

theorem Held.setDrv (h : Held drivers p others core₀ held core) (i : Nat)
    (hdesc : dev.desc = (core.pctldev i).desc) :
    Held drivers p others core₀ held (core.setDev i dev) := by
  refine h.setDev ((h.booked i).of_desc hdesc) (fun _ _ => rfl) (fun setting hsetting => ?_)
    fun c _ => by rw [hdesc]
  refine marked_of_desc (h.marked setting hsetting) fun pin _ => ?_
  by_cases hi : setting.pctldev = i
  · rw [hi, Core.setDev_self, hdesc]
  · rw [Core.setDev_of_ne hi]

theorem claims_new (hforeign : Foreign p others)
    (hnew : ∀ s ∈ held, ∀ i, (drivers.pins s i).Disjoint (drivers.pins setting i)) (i : Nat) :
    ∀ c ∈ claimsOf p (drivers.pinsAt held i) ++ others i,
      c.1 ∈ drivers.pins setting i → c.2 ≠ p := by
  intro c hc hmem
  rcases List.mem_append.mp hc with hc | hc
  · obtain ⟨pin, hpin, rfl⟩ := List.mem_map.mp hc
    obtain ⟨s, hs, hpin⟩ := mem_pinsAt.mp hpin
    exact absurd hmem (hnew s hs i hpin)
  · exact hforeign i c hc

/-- **One setting applied.**  It is held, or, if it failed, nothing has changed. -/
theorem Held.applySetting (h : Held drivers p others core₀ held core)
    (hops : ∀ i, (drivers.pmxops i).Conforms) (hforeign : Foreign p others)
    (hname : ∀ mux, setting.data = .muxGroup mux → mux.devName = p)
    (hnew : ∀ s ∈ held, ∀ i, (drivers.pins s i).Disjoint (drivers.pins setting i)) :
    ((drivers.applySetting core setting).1 < 0 →
        Held drivers p others core₀ held (drivers.applySetting core setting).2) ∧
      (¬ (drivers.applySetting core setting).1 < 0 →
        Held drivers p others core₀ (held ++ [setting]) (drivers.applySetting core setting).2) := by
  -- A setting that has no pins may join what is held.
  have hnoPins (core' : Core δ) (hdata : ∀ mux, setting.data ≠ .muxGroup mux)
      (h' : Held drivers p others core₀ held core') :
      Held drivers p others core₀ (held ++ [setting]) core' := by
    refine ⟨fun i => ?_, fun s hs => ?_, h'.frame⟩
    · rw [pinsAt_append, pinsAt_cons, pins_noMux hdata]
      simpa [PinDrivers.pinsAt] using h'.booked i
    · rcases List.mem_append.mp hs with hs | hs
      · exact h'.marked s hs
      · rw [List.mem_singleton.mp hs]
        exact fun mux hmux => absurd hmux (hdata mux)
  cases hdata : setting.data with
  | invalid =>
    unfold PinDrivers.applySetting
    rw [hdata]
    exact ⟨fun _ => h, fun hneg => absurd (by decide : (-EINVAL : Int) < 0) hneg⟩
  | configs which =>
    have hdrv : Held drivers p others core₀ held (drivers.applySetting core setting).2 := by
      unfold PinDrivers.applySetting
      rw [hdata]
      exact h.setDrv setting.pctldev rfl
    exact ⟨fun _ => hdrv,
      fun _ => hnoPins _ (fun mux hmux => by rw [hdata] at hmux; cases hmux) hdrv⟩
  | muxGroup mux =>
    obtain rfl := hname mux hdata
    have hi := hops setting.pctldev
    have hbook := h.booked setting.pctldev
    have hfresh := claims_new hforeign hnew setting.pctldev
    rw [pins_mux hdata] at hfresh
    have hle := pinmuxEnableSetting_le hi (core.pctldev setting.pctldev) mux
    unfold PinDrivers.applySetting
    rw [hdata]
    dsimp only
    refine ⟨fun hneg => h.setDrv _ (enable_ne_zero hbook hi hfresh (by omega)), fun hneg => ?_⟩
    obtain ⟨hbook', hmark, hframe, hfree⟩ := enable_zero hbook hi hfresh (by omega)
    generalize ((drivers.pmxops setting.pctldev).pinmuxEnableSetting
      (core.pctldev setting.pctldev) mux).2 = dev at hbook' hmark hframe
    refine h.setDev (hbook'.perm ?_) (fun j hj => ?_) (fun s hs => ?_) fun c hc => ?_
    · rw [pinsAt_append, pinsAt_cons, pins_mux hdata, claimsOf_append, claimsOf_append]
      simpa [PinDrivers.pinsAt, claimsOf] using List.perm_append_comm_assoc _ _ _
    · rw [pinsAt_append, pinsAt_cons, pins_of_ne hj]
      simp [PinDrivers.pinsAt]
    · rcases List.mem_append.mp hs with hs | hs
      · refine marked_of_desc (h.marked s hs) fun pin hpin => ?_
        by_cases heq : s.pctldev = setting.pctldev
        · rw [heq] at hpin ⊢
          rw [Core.setDev_self]
          refine hframe pin fun hmem => ?_
          rw [← pins_mux hdata] at hmem
          exact hnew s hs setting.pctldev hpin hmem
        · rw [Core.setDev_of_ne heq]
      · rw [List.mem_singleton.mp hs]
        intro mux' hmux' pin hpin
        rw [pins_mux hdata] at hpin
        rw [hdata, SettingData.muxGroup.injEq] at hmux'
        rw [Core.setDev_self, ← hmux']
        exact hmark pin hpin
    · exact hframe c.1 (hfree c (List.mem_append_right _ hc))

/-- A setting is undone. -/
theorem Held.disable (h : Held drivers p others core₀ (setting :: held) core)
    (hforeign : Foreign p others) (hdata : setting.data = .muxGroup mux)
    (hname : mux.devName = p) (hdisjoint : drivers.GroupsDisjoint (setting :: held)) :
    Held drivers p others core₀ held (core.setDev setting.pctldev
      ((drivers.pmxops setting.pctldev).pinmuxDisableSetting
        (core.pctldev setting.pctldev) mux)) := by
  obtain rfl := hname
  have hbook := h.booked setting.pctldev
  rw [pinsAt_cons, pins_mux hdata, claimsOf_append, List.append_assoc] at hbook
  have hmark := h.marked setting List.mem_cons_self mux hdata
  rw [pins_mux hdata] at hmark
  have hframe (q : Nat) (hq : q ∉ (drivers.pmxops setting.pctldev).groupPins mux.group) :
      ((drivers.pmxops setting.pctldev).pinmuxDisableSetting
        (core.pctldev setting.pctldev) mux).desc q = (core.pctldev setting.pctldev).desc q :=
    disablePins_desc_of_notMem hq
  refine h.setDev (disablePins_all hbook hmark) (fun j hj => ?_) (fun s hs => ?_) fun c hc => ?_
  · rw [pinsAt_cons, pins_of_ne hj, List.nil_append]
  · refine marked_of_desc (h.marked s (List.mem_cons_of_mem _ hs)) fun pin hpin => ?_
    by_cases heq : s.pctldev = setting.pctldev
    · rw [heq] at hpin ⊢
      rw [Core.setDev_self]
      refine hframe pin fun hmem => ?_
      rw [← pins_mux hdata] at hmem
      exact List.rel_of_pairwise_cons hdisjoint hs setting.pctldev hmem hpin
    · rw [Core.setDev_of_ne heq]
  · refine hframe c.1 fun hmem => ?_
    obtain ⟨d, hd, hself⟩ := hbook.owner (c.1, mux.devName)
      (List.mem_append_left _ (List.mem_map_of_mem hmem))
    obtain ⟨d', hd', hother⟩ := hbook.owner c (List.mem_append_right _ (List.mem_append_right _ hc))
    rw [hd, Option.some_inj] at hd'
    rw [← hd', hself, Option.some_inj] at hother
    exact hforeign _ c hc hother.symm

theorem Held.disableSettings (h : Held drivers p others core₀ held core)
    (hforeign : Foreign p others) (hname : Named p held)
    (hdisjoint : drivers.GroupsDisjoint held) :
    Held drivers p others core₀ [] (drivers.disableSettings core held) := by
  induction held generalizing core with
  | nil => exact h
  | cons setting held ih =>
    have htail : Named p held := fun s hs => hname s (List.mem_cons_of_mem _ hs)
    have hnoMux (hdata : ∀ mux, setting.data ≠ .muxGroup mux) :
        Held drivers p others core₀ held core := by
      refine ⟨fun i => ?_, fun s hs => h.marked s (List.mem_cons_of_mem _ hs), h.frame⟩
      have hbook := h.booked i
      rwa [pinsAt_cons, pins_noMux hdata, List.nil_append] at hbook
    unfold PinDrivers.disableSettings
    cases hdata : setting.data with
    | muxGroup mux =>
      have hmux := hname setting List.mem_cons_self mux hdata
      exact ih (h.disable hforeign hdata hmux hdisjoint) htail hdisjoint.of_cons
    | configs which =>
      exact ih (hnoMux fun mux hmux => by rw [hdata] at hmux; cases hmux) htail hdisjoint.of_cons
    | invalid =>
      exact ih (hnoMux fun mux hmux => by rw [hdata] at hmux; cases hmux) htail hdisjoint.of_cons

/-- **The loop.**  It gets to the end, or it stops with a first part of the settings held. -/
theorem Held.applySettings (h : Held drivers p others core₀ held core)
    (hops : ∀ i, (drivers.pmxops i).Conforms) (hforeign : Foreign p others)
    (hname : Named p settings) (hdisjoint : drivers.GroupsDisjoint (held ++ settings)) :
    ((drivers.applySettings core held settings).1 < 0 ∧
        ∃ rest, held ++ settings = (drivers.applySettings core held settings).2.1 ++ rest ∧
          Held drivers p others core₀ (drivers.applySettings core held settings).2.1
            (drivers.applySettings core held settings).2.2) ∨
      ((drivers.applySettings core held settings).1 = 0 ∧
        Held drivers p others core₀ (held ++ settings)
          (drivers.applySettings core held settings).2.2) := by
  induction settings generalizing core held with
  | nil => exact .inr ⟨rfl, by rwa [List.append_nil]⟩
  | cons setting settings ih =>
    have hnew : ∀ s ∈ held, ∀ i, (drivers.pins s i).Disjoint (drivers.pins setting i) :=
      fun s hs => (List.pairwise_append.mp hdisjoint).2.2 s hs setting List.mem_cons_self
    obtain ⟨hfail, hdone⟩ :=
      h.applySetting hops hforeign (hname setting List.mem_cons_self) hnew
    unfold PinDrivers.applySettings
    dsimp only
    by_cases hneg : (drivers.applySetting core setting).1 < 0
    · rw [if_pos hneg]
      exact .inl ⟨hneg, setting :: settings, rfl, hfail hneg⟩
    · rw [if_neg hneg]
      have hcons : held ++ setting :: settings = held ++ [setting] ++ settings := by
        rw [List.append_assoc, List.singleton_append]
      rw [hcons] at hdisjoint ⊢
      exact ih (hdone hneg) (fun s hs => hname s (List.mem_cons_of_mem _ hs)) hdisjoint

end Held

end RealtekIpcam.Pinctrl
