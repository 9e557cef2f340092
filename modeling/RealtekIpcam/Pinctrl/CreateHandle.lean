import Mathlib
import RealtekIpcam.Pinctrl.Driver

/-!
# Creating a handle

`create_pinctrl` goes through all mapping tables and turns every entry of a device into a setting
of one of its states.  An entry may fail, and the loop goes on after it unless the entry is
deferred; what the last entry returned decides.

What is allocated for a handle is counted: the handle, its states, and their settings.  The
tables that come from the device tree are the result of `pinctrl_dt_to_map`, which is a parameter,
as is `pinconf_map_to_setting`.
-/

namespace RealtekIpcam.Pinctrl

def ENODEV : Int := 19

/-! ## The model -/

inductive PinctrlMapType where
  | invalid
  | dummyState
  | muxGroup
  | configsPin
  | configsGroup
  deriving DecidableEq

/-- `struct pinctrl_map`.  A dummy state may name no controller; `function` and `group` are those of
a mux entry. -/
structure PinctrlMap where
  devName : String
  name : String
  type : PinctrlMapType
  ctrlDevName : Option String
  function : String
  group : Option String
  deriving DecidableEq

/-- `struct pinctrl_dev`, what a mapping asks of it: its functions with the groups that
`get_function_groups` returns for each, if it has `pmxops`; the names of its groups, which may be
NULL; and `pinconf_map_to_setting`. -/
structure Controller (γ : Type) where
  devName : String
  functions : Option (List (String × Int × List String))
  groups : List (Option String)
  confMapToSetting : PinctrlMap → Int × γ

/-- What `data` of a setting holds. -/
inductive SettingKind (γ : Type) where
  | mux (func group : Nat)
  | configs (data : γ)
  deriving DecidableEq

/-- `struct pinctrl_setting`. -/
structure HandleSetting (γ : Type) where
  kind : SettingKind γ
  ctrl : String
  devName : String
  deriving DecidableEq

/-- `struct pinctrl_state`. -/
structure HandleState (γ : Type) where
  name : String
  settings : List (HandleSetting γ)
  deriving DecidableEq

/-- `struct pinctrl`, with the tables that were registered for it. -/
structure Handle (γ : Type) where
  dev : String
  states : List (HandleState γ)
  dtMaps : List (List PinctrlMap)
  deriving DecidableEq

/-- What is allocated, and whether the next allocations succeed. -/
structure Heap where
  handles : Nat
  states : Nat
  settings : Nat
  memory : List Bool
  deriving DecidableEq

def Heap.kzalloc (heap : Heap) : Bool × Heap :=
  (heap.memory.headD true, { heap with memory := heap.memory.tail })

variable {γ : Type}

def pinctrlGetGroupSelector (ctrl : Controller γ) (group : String) : Except Int Nat :=
  match ctrl.groups.findIdx? (· = some group) with
  | some selector => .ok selector
  | none => .error (-EINVAL)

/-- `pinmux_map_to_setting`: the selectors of the function and of the group, which is the function's
first if the entry names none. -/
def pinmuxMapToSetting (ctrl : Controller γ) (map : PinctrlMap) : Except Int (Nat × Nat) :=
  match ctrl.functions with
  | none => .error (-EINVAL)
  | some functions =>
    match functions.findIdx? (·.1 = map.function) with
    | none => .error (-EINVAL)
    | some func =>
      let (ret, groups) := (functions.getD func ("", -EINVAL, [])).2
      if ret < 0 then .error ret
      else
        match groups with
        | [] => .error (-EINVAL)
        | first :: _ =>
          if map.group.all (· ∈ groups) then
            (pinctrlGetGroupSelector ctrl (map.group.getD first)).map fun group => (func, group)
          else .error (-EINVAL)

/-- The conversion by the type of the entry. -/
def mapToSetting (ctrl : Controller γ) (map : PinctrlMap) : Except Int (SettingKind γ) :=
  match map.type with
  | .muxGroup => (pinmuxMapToSetting ctrl map).map fun (func, group) => .mux func group
  | .configsPin | .configsGroup =>
    let (ret, data) := ctrl.confMapToSetting map
    if ret < 0 then .error ret else .ok (.configs data)
  | .invalid | .dummyState => .error (-EINVAL)

/-- A handle that is being made: its states, and the heap. -/
structure Draft (γ : Type) where
  states : List (HandleState γ)
  heap : Heap

/-- `find_state`, and `create_state` if there is none: where the state is. -/
def Draft.state (d : Draft γ) (name : String) : Option Nat × Draft γ :=
  match d.states.findIdx? (·.name = name) with
  | some i => (some i, d)
  | none =>
    let (memory, heap) := d.heap.kzalloc
    if memory then
      (some d.states.length, ⟨d.states ++ [⟨name, []⟩], { heap with states := heap.states + 1 }⟩)
    else (none, { d with heap := heap })

/-- `list_add_tail(&setting->node, &state->settings)`. -/
def Draft.addTail (d : Draft γ) (i : Nat) (setting : HandleSetting γ) : Draft γ :=
  { d with states := d.states.modify i fun state =>
      { state with settings := state.settings ++ [setting] } }

def getPinctrlDevFromDevname (ctrls : List (Controller γ)) (devName : Option String) :
    Option (Controller γ) :=
  devName.bind fun devName => ctrls.find? (·.devName = devName)

def addSetting (ctrls : List (Controller γ)) (pctldev : Option (Controller γ)) (map : PinctrlMap)
    (d : Draft γ) : Int × Draft γ :=
  match d.state map.name with
  | (none, d) => (-ENOMEM, d)
  | (some i, d) =>
    if map.type = .dummyState then (0, d)
    else
      let (memory, heap) := d.heap.kzalloc
      if !memory then (-ENOMEM, { d with heap := heap })
      else
        let d := { d with heap := { heap with settings := heap.settings + 1 } }
        -- The setting that is not added is freed.
        let kfree := { d with heap := { d.heap with settings := d.heap.settings - 1 } }
        match pctldev.or (getPinctrlDevFromDevname ctrls map.ctrlDevName) with
        | none =>
          if map.ctrlDevName = some map.devName then (-ENODEV, kfree) else (-EPROBE_DEFER, kfree)
        | some ctrl =>
          match mapToSetting ctrl map with
          | .error ret => (ret, kfree)
          | .ok kind => (0, d.addTail i ⟨kind, ctrl.devName, map.devName⟩)

/-- The entry is for this device, and for a hog it is served by the controller itself. -/
def applies (devname : String) (pctldev : Option (Controller γ)) (map : PinctrlMap) : Bool :=
  map.devName = devname && pctldev.all fun ctrl => map.ctrlDevName = some ctrl.devName

/-- The loop over the entries.  A deferral leaves it. -/
def addSettings (ctrls : List (Controller γ)) (devname : String) (pctldev : Option (Controller γ)) :
    List PinctrlMap → Int → Draft γ → Int × Draft γ
  | [], ret, d => (ret, d)
  | map :: maps, ret, d =>
    if applies devname pctldev map then
      let (ret, d) := addSetting ctrls pctldev map d
      if ret = -EPROBE_DEFER then (ret, d) else addSettings ctrls devname pctldev maps ret d
    else addSettings ctrls devname pctldev maps ret d

/-- `pinctrl_free`: the settings of each state, the states, and the handle. -/
def pinctrlFree (d : Draft γ) : Heap :=
  let heap := d.states.foldl (fun heap state =>
    let heap := state.settings.foldl (fun heap _ =>
      { heap with settings := heap.settings - 1 }) heap
    { heap with states := heap.states - 1 }) d.heap
  { heap with handles := heap.handles - 1 }

/-- The mapping tables (`pinctrl_maps`), the controllers (`pinctrldev_list`), and the handles
(`pinctrl_list`). -/
structure PinctrlCore (γ : Type) where
  maps : List (List PinctrlMap)
  ctrls : List (Controller γ)
  list : List (Handle γ)
  heap : Heap

/-- What `pinctrl_dt_to_map` returns: an error, or the tables that it registers.  They are
unregistered by `pinctrl_dt_free_maps`. -/
abbrev DtMaps := Except { ret : Int // ret < 0 } (List (List PinctrlMap))

def createPinctrl (core : PinctrlCore γ) (dev : String) (pctldev : Option (Controller γ))
    (dt : DtMaps) : Except Int (Handle γ) × PinctrlCore γ :=
  let (memory, heap) := core.heap.kzalloc
  if !memory then (.error (-ENOMEM), { core with heap := heap })
  else
    match dt with
    | .error ret => (.error ret, { core with heap := heap })
    | .ok tables =>
      let heap := { heap with handles := heap.handles + 1 }
      let maps := core.maps ++ tables
      let (ret, d) := addSettings core.ctrls dev pctldev maps.flatten 0 ⟨[], heap⟩
      -- The one way out of the loop and the other free the handle alike.
      if ret < 0 then (.error ret, { core with heap := pinctrlFree d })
      else
        let handle := ⟨dev, d.states, tables⟩
        (.ok handle, { core with maps := maps, list := core.list ++ [handle], heap := d.heap })

/-- What `add_setting` returns for the entries that apply, in order, as far as the loop gets. -/
def addResults (ctrls : List (Controller γ)) (devname : String) (pctldev : Option (Controller γ)) :
    List PinctrlMap → Draft γ → List Int
  | [], _ => []
  | map :: maps, d =>
    if applies devname pctldev map then
      let (ret, d) := addSetting ctrls pctldev map d
      if ret = -EPROBE_DEFER then [ret] else ret :: addResults ctrls devname pctldev maps d
    else addResults ctrls devname pctldev maps d

variable {ctrls : List (Controller γ)} {devname : String} {pctldev : Option (Controller γ)}

theorem pinmuxMapToSetting_neg {ctrl : Controller γ} {map : PinctrlMap} {ret : Int}
    (h : pinmuxMapToSetting ctrl map = .error ret) : ret < 0 := by
  have hinval : ∀ {ret : Int}, (.error (-EINVAL) : Except Int (Nat × Nat)) = .error ret →
      ret < 0 := by
    rintro _ ⟨⟩
    decide
  simp only [pinmuxMapToSetting, pinctrlGetGroupSelector] at h
  split at h
  · exact hinval h
  split at h
  · exact hinval h
  split at h
  next hneg =>
    cases h
    exact hneg
  split at h
  · exact hinval h
  split at h
  · split at h
    · cases h
    · exact hinval h
  · exact hinval h

theorem mapToSetting_neg {ctrl : Controller γ} {map : PinctrlMap} {ret : Int}
    (h : mapToSetting ctrl map = .error ret) : ret < 0 := by
  simp only [mapToSetting] at h
  split at h
  · cases hmux : pinmuxMapToSetting ctrl map with
    | ok selectors =>
      rw [hmux] at h
      cases h
    | error err =>
      rw [hmux] at h
      cases h
      exact pinmuxMapToSetting_neg hmux
  · split at h
    next hneg =>
      cases h
      exact hneg
    next => cases h
  · split at h
    next hneg =>
      cases h
      exact hneg
    next => cases h
  · cases h
    decide
  · cases h
    decide

theorem addSetting_nonpos (map : PinctrlMap) (d : Draft γ) :
    (addSetting ctrls pctldev map d).1 = 0 ∨ (addSetting ctrls pctldev map d).1 < 0 := by
  have hmem : (-ENOMEM : Int) < 0 := by decide
  have hdev : (-ENODEV : Int) < 0 := by decide
  have hdefer : (-EPROBE_DEFER : Int) < 0 := by decide
  simp only [addSetting]
  split
  · exact Or.inr hmem
  split
  · exact Or.inl rfl
  split
  · exact Or.inr hmem
  split
  · split
    · exact Or.inr hdev
    · exact Or.inr hdefer
  split
  next herr => exact Or.inr (mapToSetting_neg herr)
  next => exact Or.inl rfl

/-! ## What is allocated -/

/-- The settings of all states. -/
def settingCount (states : List (HandleState γ)) : Nat :=
  (states.map (·.settings.length)).sum

/-- The states of the draft and their settings are allocated, besides what was before. -/
structure Draft.Owned (handles states settings : Nat) (d : Draft γ) : Prop where
  handles : d.heap.handles = handles
  states : d.heap.states = states + d.states.length
  settings : d.heap.settings = settings + settingCount d.states

variable {handles states settings : Nat} {d : Draft γ}

theorem settingCount_modify (sts : List (HandleState γ)) {i : Nat} (hi : i < sts.length)
    (setting : HandleSetting γ) :
    settingCount (sts.modify i fun state =>
      { state with settings := state.settings ++ [setting] }) = settingCount sts + 1 := by
  induction sts generalizing i with
  | nil => exact absurd hi (Nat.not_lt_zero i)
  | cons state sts ih =>
    cases i with
    | zero =>
      simp [settingCount]
      omega
    | succ i =>
      have hrest := ih (Nat.lt_of_succ_lt_succ hi)
      simp only [settingCount, List.modify_succ_cons, List.map_cons, List.sum_cons] at hrest ⊢
      omega

theorem Draft.Owned.state (h : d.Owned handles states settings) (name : String) :
    (d.state name).2.Owned handles states settings ∧
      ∀ i, (d.state name).1 = some i → i < (d.state name).2.states.length := by
  simp only [Draft.state]
  split
  next i hfind =>
    refine ⟨h, fun j hj => ?_⟩
    cases hj
    exact (List.findIdx?_eq_some_iff_findIdx_eq.mp hfind).1
  next =>
    by_cases hmem : d.heap.kzalloc.1 = true
    · rw [if_pos hmem]
      refine ⟨⟨h.handles, ?_, ?_⟩, fun j hj => ?_⟩
      · simp [Heap.kzalloc, h.states, Nat.add_assoc]
      · simp [Heap.kzalloc, h.settings, settingCount]
      · cases hj
        simp
    · rw [if_neg hmem]
      exact ⟨⟨h.handles, h.states, h.settings⟩, fun j hj => (by cases hj)⟩

/-- **One entry** leaves nothing allocated but the states of the draft and their settings. -/
theorem Draft.Owned.addSetting (h : d.Owned handles states settings) (map : PinctrlMap) :
    (addSetting ctrls pctldev map d).2.Owned handles states settings := by
  obtain ⟨hstate, hlt⟩ := h.state map.name
  simp only [Pinctrl.addSetting]
  generalize d.state map.name = r at hstate hlt
  obtain ⟨i, d⟩ := r
  cases i with
  | none => exact hstate
  | some i =>
    have hi := hlt i rfl
    have hfreed : ∀ heap : Heap, heap.handles = d.heap.handles → heap.states = d.heap.states →
        heap.settings = d.heap.settings →
        ({ d with heap := heap } : Draft γ).Owned handles states settings := by
      intro heap hh hst hse
      exact ⟨hh.trans hstate.handles, hst.trans hstate.states, hse.trans hstate.settings⟩
    dsimp only
    split
    · exact hstate
    split
    · exact hfreed _ rfl rfl rfl
    split
    · split <;> exact hfreed _ rfl rfl rfl
    split
    · exact hfreed _ rfl rfl rfl
    · refine ⟨hstate.handles, ?_, ?_⟩
      · have hold : d.heap.kzalloc.2.states = states + d.states.length := hstate.states
        simp [Draft.addTail, hold]
      · have hold : d.heap.kzalloc.2.settings = settings + settingCount d.states := hstate.settings
        simp only [Draft.addTail, settingCount_modify _ hi, hold]
        omega

theorem Draft.Owned.addSettings (maps : List PinctrlMap) (ret : Int) {d : Draft γ}
    (h : d.Owned handles states settings) :
    (addSettings ctrls devname pctldev maps ret d).2.Owned handles states settings := by
  induction maps generalizing ret d with
  | nil => exact h
  | cons map maps ih =>
    simp only [Pinctrl.addSettings]
    split
    · split
      · exact h.addSetting map
      · exact ih _ (h.addSetting map)
    · exact ih ret h

theorem Draft.Owned.pinctrlFree (h : d.Owned (handles + 1) states settings) :
    pinctrlFree d = ⟨handles, states, settings, d.heap.memory⟩ := by
  have hsettings : ∀ (l : List (HandleSetting γ)) (heap : Heap),
      l.foldl (fun heap _ => { heap with settings := heap.settings - 1 }) heap =
        { heap with settings := heap.settings - l.length } := by
    intro l
    induction l with
    | nil => exact fun heap => rfl
    | cons setting l ih =>
      intro heap
      rw [List.foldl_cons, ih]
      simp [Nat.sub_sub, Nat.add_comm]
  have hstates : ∀ (sts : List (HandleState γ)) (heap : Heap),
      sts.foldl (fun heap state =>
        let heap := state.settings.foldl (fun heap _ =>
          { heap with settings := heap.settings - 1 }) heap
        { heap with states := heap.states - 1 }) heap =
        { heap with
          states := heap.states - sts.length
          settings := heap.settings - settingCount sts } := by
    intro sts
    induction sts with
    | nil => exact fun heap => rfl
    | cons state sts ih =>
      intro heap
      rw [List.foldl_cons, ih, hsettings]
      simp [settingCount, Nat.sub_sub, Nat.add_comm]
  simp only [Pinctrl.pinctrlFree, hstates, h.handles, h.states, h.settings, Nat.add_sub_cancel]

theorem addSettings_ret (maps : List PinctrlMap) (ret : Int) (d : Draft γ) :
    (addSettings ctrls devname pctldev maps ret d).1 =
      (addResults ctrls devname pctldev maps d).getLastD ret := by
  induction maps generalizing ret d with
  | nil => rfl
  | cons map maps ih =>
    simp only [addSettings, addResults]
    split
    · split
      · rfl
      · rw [ih, List.getLastD_cons]
    · exact ih ret d

theorem getLast_of_deferred (maps : List PinctrlMap) (d : Draft γ)
    (h : -EPROBE_DEFER ∈ addResults ctrls devname pctldev maps d) :
    (addResults ctrls devname pctldev maps d).getLast? = some (-EPROBE_DEFER) := by
  induction maps generalizing d with
  | nil => cases h
  | cons map maps ih =>
    simp only [addResults] at h ⊢
    split at h
    next happ =>
      rw [if_pos happ]
      split at h
      next hdefer =>
        rw [if_pos hdefer, hdefer]
        rfl
      next hother =>
        rw [if_neg hother]
        have hrest := ih _ ((List.mem_cons.mp h).resolve_left fun heq => hother heq.symm)
        rw [List.getLast?_cons, hrest]
        rfl
    next happ =>
      rw [if_neg happ]
      exact ih d h

theorem addResults_nonpos (maps : List PinctrlMap) (d : Draft γ) :
    ∀ ret ∈ addResults ctrls devname pctldev maps d, ret = 0 ∨ ret < 0 := by
  induction maps generalizing d with
  | nil =>
    intro ret hret
    cases hret
  | cons map maps ih =>
    have hone : (addSetting ctrls pctldev map d).1 = 0 ∨ (addSetting ctrls pctldev map d).1 < 0 :=
      addSetting_nonpos map d
    intro ret hret
    simp only [addResults] at hret
    split at hret
    · split at hret
      · rw [List.mem_singleton.mp hret]
        exact hone
      · rcases List.mem_cons.mp hret with rfl | hret
        · exact hone
        · exact ih _ ret hret
    · exact ih d ret hret

/-! ## The handle -/

/-- What the entries return in a call of `create_pinctrl`; there are none without memory for the
handle or without the tables of the device tree. -/
def createResults (core : PinctrlCore γ) (dev : String) (pctldev : Option (Controller γ))
    (dt : DtMaps) : List Int :=
  if core.heap.kzalloc.1 then
    match dt with
    | .error _ => []
    | .ok tables =>
      let heap := core.heap.kzalloc.2
      addResults core.ctrls dev pctldev (core.maps ++ tables).flatten
        ⟨[], { heap with handles := heap.handles + 1 }⟩
  else []

/-- **Every error is reported**: a handle means that every entry was added; a deferral is returned;
and an error leaves the lists as they were and nothing allocated. -/
structure Reported (core : PinctrlCore γ) (dev : String) (pctldev : Option (Controller γ))
    (dt : DtMaps) : Prop where
  added : ∀ handle, (createPinctrl core dev pctldev dt).1 = .ok handle →
    ∀ ret ∈ createResults core dev pctldev dt, ret = 0
  deferred : -EPROBE_DEFER ∈ createResults core dev pctldev dt →
    (createPinctrl core dev pctldev dt).1 = .error (-EPROBE_DEFER)
  clean : ∀ ret, (createPinctrl core dev pctldev dt).1 = .error ret → ret < 0 ∧
    ∃ memory, (createPinctrl core dev pctldev dt).2 =
      { core with heap := { core.heap with memory := memory } }

variable {core : PinctrlCore γ} {dev : String} {dt : DtMaps}

/-- A call fails with what the last entry returned and leaves nothing behind, or it gives a handle
and the last entry did not fail. -/
theorem createPinctrl_cases (core : PinctrlCore γ) (dev : String) (pctldev : Option (Controller γ))
    (dt : DtMaps) :
    (∃ ret memory, createPinctrl core dev pctldev dt =
        (.error ret, { core with heap := { core.heap with memory := memory } }) ∧ ret < 0 ∧
        ((createResults core dev pctldev dt).getLast? = some ret ∨
          createResults core dev pctldev dt = [])) ∨
      ∃ handle, (createPinctrl core dev pctldev dt).1 = .ok handle ∧
        0 ≤ (createResults core dev pctldev dt).getLastD 0 := by
  simp only [createPinctrl, createResults]
  cases hmem : core.heap.kzalloc.1 with
  | false => exact Or.inl ⟨_, core.heap.memory.tail, rfl, by decide, Or.inr rfl⟩
  | true =>
    cases dt with
    | error ret => exact Or.inl ⟨_, core.heap.memory.tail, rfl, ret.2, Or.inr rfl⟩
    | ok tables =>
      let heap := core.heap.kzalloc.2
      let d : Draft γ := ⟨[], { heap with handles := heap.handles + 1 }⟩
      let maps := (core.maps ++ tables).flatten
      have hret : (addSettings core.ctrls dev pctldev maps 0 d).1 =
          (addResults core.ctrls dev pctldev maps d).getLastD 0 :=
        addSettings_ret maps 0 d
      have howned : d.Owned (core.heap.handles + 1) core.heap.states core.heap.settings :=
        ⟨rfl, rfl, rfl⟩
      have hfree : pinctrlFree (addSettings core.ctrls dev pctldev maps 0 d).2 = _ :=
        (howned.addSettings maps 0).pinctrlFree
      by_cases hneg : (addSettings core.ctrls dev pctldev maps 0 d).1 < 0
      · refine Or.inl ⟨(addSettings core.ctrls dev pctldev maps 0 d).1,
          (addSettings core.ctrls dev pctldev maps 0 d).2.heap.memory, ?_, hneg, Or.inl ?_⟩
        · simp only [Bool.not_true, Bool.false_eq_true, if_false]
          rw [if_pos hneg, hfree]
        · rw [hret] at hneg ⊢
          simp only [if_true]
          change List.getLast? (addResults core.ctrls dev pctldev maps d) = _
          cases hlast : (addResults core.ctrls dev pctldev maps d).getLast? with
          | none =>
            rw [List.getLastD_eq_getLast?, hlast] at hneg
            exact absurd hneg (Int.lt_irrefl 0)
          | some last => rw [List.getLastD_eq_getLast?, hlast, Option.getD_some]
      · refine Or.inr
          ⟨⟨dev, (addSettings core.ctrls dev pctldev maps 0 d).2.states, tables⟩, ?_, ?_⟩
        · simp only [Bool.not_true, Bool.false_eq_true, if_false]
          rw [if_neg hneg]
        · simp only [if_true]
          exact hret ▸ Int.not_lt.mp hneg

/-- An error among the results is followed by one at the end. -/
def Accumulates (results : List Int) : Prop :=
  (∃ ret ∈ results, ret < 0) → ∃ ret ∈ results.getLast?, ret < 0

theorem createResults_nonpos : ∀ ret ∈ createResults core dev pctldev dt, ret = 0 ∨ ret < 0 := by
  intro ret hret
  simp only [createResults] at hret
  split at hret
  · split at hret
    · cases hret
    · exact addResults_nonpos _ _ ret hret
  · cases hret

theorem createResults_deferred (h : -EPROBE_DEFER ∈ createResults core dev pctldev dt) :
    (createResults core dev pctldev dt).getLast? = some (-EPROBE_DEFER) := by
  simp only [createResults] at h ⊢
  split at h
  next hmem =>
    rw [if_pos hmem]
    split at h
    · cases h
    · exact getLast_of_deferred _ _ h
  · cases h

/-- One controller with the function "uart", and a device with two mux entries of its default state,
the first for a function that the controller does not have. -/
def lostError : PinctrlCore Unit where
  maps :=
    [[⟨"serial", "default", .muxGroup, some "pinctrl", "spi", none⟩,
      ⟨"serial", "default", .muxGroup, some "pinctrl", "uart", none⟩]]
  ctrls := [⟨"pinctrl", some [("uart", 0, ["uart_grp"])], [some "uart_grp"], fun _ => (0, ())⟩]
  list := []
  heap := ⟨0, 0, 0, []⟩

end RealtekIpcam.Pinctrl
