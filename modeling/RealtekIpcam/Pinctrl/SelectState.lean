import RealtekIpcam.Pinctrl.States

/-!
# Selecting a pinctrl state

Whichever states are selected and whichever steps fail on the way, a device owns exactly the
pins of the mux groups of its `p->state`, and nobody else notices: `selectState_owned`.

The proof follows one call.  It begins and ends with the device holding the settings of its state
(`Held`, for `Core.settings`), and what it holds in between does not concern the claims of the
others.
-/

namespace RealtekIpcam.Pinctrl

variable {δ : Type}

/-! ## What is claimed -/

/-- The device owns the pin. -/
def Core.Owns (core : Core δ) (p : String) (i pin : Nat) : Prop :=
  ∃ d, (core.pctldev i).desc pin = some d ∧ d.muxUsecount ≠ 0 ∧ d.muxOwner = some p

/-- A device owns exactly the pins of the mux groups of its state, and each of those pins is muxed
by the setting that it belongs to. -/
structure StateOwned (drivers : PinDrivers δ) (states : States) (core : Core δ) : Prop where
  owns_iff : ∀ p i pin, core.Owns p i pin ↔ pin ∈ drivers.pinsAt (core.settings states p) i
  marked : ∀ p, ∀ setting ∈ core.settings states p, drivers.Marked core setting

/-- What a call of `pinctrl_select_state` does to its device and to the others. -/
structure SelectOk (core : Core δ) (p : String) (state : Nat) (r : Int × Core δ) : Prop where
  success : r.1 = 0 → r.2.state p = some state
  failure : r.1 ≠ 0 →
    (r.2.state p = core.state p ∧ ∀ i pin, r.2.Owns p i pin ↔ core.Owns p i pin) ∨
      (r.2.state p = none ∧ ∀ i pin, ¬ r.2.Owns p i pin)
  others : ∀ q, q ≠ p → r.2.state q = core.state q ∧
    ∀ i pin, (r.2.Owns q i pin ↔ core.Owns q i pin) ∧
      (core.Owns q i pin → (r.2.pctldev i).desc pin = (core.pctldev i).desc pin)

def selectStep (drivers : PinDrivers δ) (states : States) (core : Core δ) (e : String × Nat) :
    Option (Core δ) :=
  some (drivers.pinctrlSelectState states core e.1 e.2).2

/-! ## Committing a state -/

section Held

variable {drivers : PinDrivers δ} {states : States} {core core₀ : Core δ} {p q : String}
  {others : Nat → List Claim} {state : Nat}

theorem disableSettings_state (drivers : PinDrivers δ) (core : Core δ)
    (settings : List StateSetting) :
    (drivers.disableSettings core settings).state = core.state := by
  induction settings generalizing core with
  | nil => rfl
  | cons setting settings ih =>
    unfold PinDrivers.disableSettings
    cases setting.data with
    | muxGroup mux => exact ih _
    | configs which => exact ih core
    | invalid => exact ih core

theorem applySettings_state (drivers : PinDrivers δ) (core : Core δ)
    (applied settings : List StateSetting) :
    (drivers.applySettings core applied settings).2.2.state = core.state := by
  have hone (core : Core δ) (setting : StateSetting) :
      (drivers.applySetting core setting).2.state = core.state := by
    unfold PinDrivers.applySetting
    cases setting.data <;> rfl
  induction settings generalizing core applied with
  | nil => rfl
  | cons setting settings ih =>
    unfold PinDrivers.applySettings
    dsimp only
    split
    · exact hone core setting
    · exact (ih _ _).trans (hone core setting)

theorem settings_none (hnone : core.state p = none) : core.settings states p = [] := by
  unfold Core.settings
  rw [hnone]

theorem settings_some {state : Nat} (hsome : core.state p = some state) :
    core.settings states p = states p state := by
  unfold Core.settings
  rw [hsome]

/-- What has become of a device when it was to be brought from `core₀` to a state. -/
structure Outcome (drivers : PinDrivers δ) (states : States) (p : String)
    (others : Nat → List Claim) (core₀ : Core δ) (state : Nat) (r : Int × Core δ) : Prop where
  held : Held drivers p others core₀ (r.2.settings states p) r.2
  others : ∀ q, q ≠ p → r.2.state q = core₀.state q
  result : r.1 = 0 ∧ r.2.state p = some state ∨
    r.1 < 0 ∧ (r.2.state p = none ∨ r.2.state p = core₀.state p)

/-- A state is applied or undone. -/
theorem Held.applyState (h : Held drivers p others core₀ [] core)
    (hops : ∀ i, (drivers.pmxops i).Conforms) (hforeign : Foreign p others)
    (hwf : states.WellFormed drivers) (hnone : core.state p = none) (state : Nat) :
    Held drivers p others core₀
        ((drivers.applyState states core p state).2.settings states p)
        (drivers.applyState states core p state).2 ∧
      (∀ q, q ≠ p → (drivers.applyState states core p state).2.state q = core.state q) ∧
      ((drivers.applyState states core p state).1 = 0 ∧
          (drivers.applyState states core p state).2.state p = some state ∨
        (drivers.applyState states core p state).1 < 0 ∧
          (drivers.applyState states core p state).2.state p = none) := by
  have hstate := applySettings_state drivers core [] (states p state)
  unfold PinDrivers.applyState
  dsimp only
  rcases h.applySettings hops hforeign (hwf.named p state)
    (by rw [List.nil_append]; exact hwf.disjoint p state) with
    ⟨hneg, rest, hsplit, hheld⟩ | ⟨hzero, hheld⟩
  · rw [if_pos hneg]
    rw [List.nil_append] at hsplit
    have hname : Named p (drivers.applySettings core [] (states p state)).2.1 :=
      fun s hs => hwf.named p state s (by rw [hsplit]; exact List.mem_append_left rest hs)
    have hdisjoint : drivers.GroupsDisjoint
        (drivers.applySettings core [] (states p state)).2.1 :=
      (List.pairwise_append.mp (hsplit ▸ hwf.disjoint p state)).1
    have hend := disableSettings_state drivers
      (drivers.applySettings core [] (states p state)).2.2
      (drivers.applySettings core [] (states p state)).2.1
    have hnone' : (drivers.disableSettings
        (drivers.applySettings core [] (states p state)).2.2
        (drivers.applySettings core [] (states p state)).2.1).state p = none := by
      rw [hend, hstate, hnone]
    refine ⟨?_, fun q _ => by rw [hend, hstate], .inr ⟨hneg, hnone'⟩⟩
    rw [settings_none hnone']
    exact hheld.disableSettings hforeign hname hdisjoint
  · rw [if_neg (by omega)]
    refine ⟨?_, fun q hq => ?_, .inl ⟨rfl, Core.setState_self _ p _⟩⟩
    · rw [settings_some (Core.setState_self _ p _)]
      exact hheld.setState _
    · rw [Core.setState_of_ne hq, hstate]

theorem Held.leaveState (h : Held drivers p others core (core.settings states p) core)
    (hforeign : Foreign p others) (hwf : states.WellFormed drivers) :
    Held drivers p others core [] (drivers.leaveState states core p) ∧
      (drivers.leaveState states core p).state p = none ∧
      ∀ q, q ≠ p → (drivers.leaveState states core p).state q = core.state q := by
  unfold PinDrivers.leaveState
  refine ⟨?_, Core.setState_self _ p none, fun q hq => ?_⟩
  · cases hold : core.state p with
    | none =>
      rw [settings_none hold] at h
      exact h.setState none
    | some oldState =>
      rw [settings_some hold] at h
      exact (h.disableSettings hforeign (hwf.named p oldState)
        (hwf.disjoint p oldState)).setState none
  · rw [Core.setState_of_ne hq]
    cases core.state p with
    | none => rfl
    | some oldState => exact congrFun (disableSettings_state drivers core _) q

theorem Held.commitState (h : Held drivers p others core (core.settings states p) core)
    (hops : ∀ i, (drivers.pmxops i).Conforms) (hforeign : Foreign p others)
    (hwf : states.WellFormed drivers) (state : Nat) :
    Outcome drivers states p others core state
      (drivers.pinctrlCommitState states core p state) := by
  obtain ⟨hdown, hleft, hleave⟩ := h.leaveState hforeign hwf
  obtain ⟨hheld, happly, hresult⟩ := hdown.applyState hops hforeign hwf hleft state
  have hothers : ∀ q, q ≠ p → (drivers.applyState states (drivers.leaveState states core p) p
      state).2.state q = core.state q := fun q hq => (happly q hq).trans (hleave q hq)
  unfold PinDrivers.pinctrlCommitState
  dsimp only
  rcases hresult with ⟨hzero, hstate⟩ | ⟨hneg, hnone⟩
  · rw [if_neg (by omega)]
    exact ⟨hheld, hothers, .inl ⟨rfl, hstate⟩⟩
  · rw [if_pos hneg]
    cases hold : core.state p with
    | none => exact ⟨hheld, hothers, .inr ⟨hneg, .inl hnone⟩⟩
    | some oldState =>
      rw [settings_none hnone] at hheld
      obtain ⟨hheld', happly', hresult'⟩ := hheld.applyState hops hforeign hwf hnone oldState
      refine ⟨hheld', fun q hq => (happly' q hq).trans (hothers q hq), .inr ⟨hneg, ?_⟩⟩
      rcases hresult' with hback | hfail
      · exact .inr (hback.2.trans hold.symm)
      · exact .inl hfail.2

theorem Held.selectState (h : Held drivers p others core (core.settings states p) core)
    (hops : ∀ i, (drivers.pmxops i).Conforms) (hforeign : Foreign p others)
    (hwf : states.WellFormed drivers) (state : Nat) :
    Outcome drivers states p others core state
      (drivers.pinctrlSelectState states core p state) := by
  unfold PinDrivers.pinctrlSelectState
  split
  · rename_i hsame
    exact ⟨h, fun _ _ => rfl, .inl ⟨rfl, hsame⟩⟩
  · exact h.commitState hops hforeign hwf state

/-- A device that has no state goes straight to the loop, and does not call back. -/
theorem commitStateWithin_of_none (hnone : core.state p = none) (depth state : Nat) :
    drivers.commitStateWithin states (depth + 1) core p state =
      some (drivers.applyState states core p state) := by
  have hleave : drivers.leaveState states core p = core := by
    unfold PinDrivers.leaveState
    rw [hnone]
    show { core with state := Function.update core.state p none } = core
    rw [← hnone, Function.update_eq_self]
  unfold PinDrivers.commitStateWithin PinDrivers.applyState
  dsimp only
  rw [hleave, hnone]
  exact (apply_ite some _ _ _).symm

/-- **One level deep.**  The way back calls `pinctrl_commit_state` once more at most, since
`p->state` is NULL by then: a depth of two is enough for all drivers, states and settings. -/
theorem commitStateWithin_eq (drivers : PinDrivers δ) (states : States) (core : Core δ)
    (p : String) (state depth : Nat) :
    drivers.commitStateWithin states (depth + 2) core p state =
      some (drivers.pinctrlCommitState states core p state) := by
  have hleft : (drivers.leaveState states core p).state p = none := Core.setState_self _ p none
  have hstate := applySettings_state drivers (drivers.leaveState states core p) [] (states p state)
  have happly : drivers.applyState states (drivers.leaveState states core p) p state =
      let r := drivers.applySettings (drivers.leaveState states core p) [] (states p state)
      if r.1 < 0 then (r.1, drivers.disableSettings r.2.2 r.2.1)
      else (0, r.2.2.setState p (some state)) := rfl
  unfold PinDrivers.commitStateWithin PinDrivers.pinctrlCommitState
  dsimp only
  rw [happly]
  generalize drivers.applySettings (drivers.leaveState states core p) [] (states p state) = r
    at hstate
  dsimp only
  by_cases hneg : r.1 < 0
  · simp only [if_pos hneg]
    cases hold : core.state p with
    | none => rfl
    | some oldState =>
      have hnone : (drivers.disableSettings r.2.2 r.2.1).state p = none := by
        rw [disableSettings_state, hstate, hleft]
      show (if _ = some oldState then _ else _) = _
      rw [hnone, if_neg (Option.some_ne_none oldState ∘ Eq.symm), commitStateWithin_of_none hnone]
      rfl
  · simp only [if_neg hneg, lt_irrefl, if_false]

end Held

/-! ## Runs -/

/-- The books of the controllers are those of the selected states. -/
structure Selected (drivers : PinDrivers δ) (states : States) (core : Core δ) : Prop where
  booked : ∀ i, ∃ claims, Booked (core.pctldev i) claims ∧
    ∀ p, (claims.filter (·.2 = p)).Perm (claimsOf p (drivers.pinsAt (core.settings states p) i))
  marked : ∀ p, ∀ setting ∈ core.settings states p, drivers.Marked core setting

section Selected

variable {drivers : PinDrivers δ} {states : States} {core : Core δ} {p q : String}
  {others : Nat → List Claim} {state i pin : Nat} {r : Int × Core δ}

theorem filter_claimsOf (p : String) (pins : List Nat) :
    (claimsOf p pins).filter (·.2 = p) = claimsOf p pins := by
  refine List.filter_eq_self.mpr fun c hc => ?_
  obtain ⟨pin, -, rfl⟩ := List.mem_map.mp hc
  exact decide_eq_true rfl

theorem filter_claimsOf_of_ne (hq : q ≠ p) (pins : List Nat) :
    (claimsOf p pins).filter (·.2 = q) = [] := by
  refine List.filter_eq_nil_iff.mpr fun c hc => ?_
  obtain ⟨pin, -, rfl⟩ := List.mem_map.mp hc
  exact fun heq => hq (of_decide_eq_true heq).symm

/-- The claims of the other devices are those of their states. -/
def OthersSelected (drivers : PinDrivers δ) (states : States) (core : Core δ) (p : String)
    (others : Nat → List Claim) : Prop :=
  ∀ i q, q ≠ p → ((others i).filter (·.2 = q)).Perm
    (claimsOf q (drivers.pinsAt (core.settings states q) i))

theorem Selected.held (h : Selected drivers states core) (p : String) :
    ∃ others, Foreign p others ∧ OthersSelected drivers states core p others ∧
      Held drivers p others core (core.settings states p) core := by
  choose claims hbook hperm using h.booked
  refine ⟨fun i => (claims i).filter fun c => ¬ c.2 = p, fun i c hc => ?_, fun i q hq => ?_,
    fun i => ?_, h.marked p, fun _ _ _ => rfl⟩
  · exact of_decide_eq_true (List.mem_filter.mp hc).2
  · rw [List.filter_filter]
    have hsame : ((claims i).filter fun c => decide (c.2 = q) && decide ¬ c.2 = p) =
        (claims i).filter (·.2 = q) := by
      refine List.filter_congr fun c _ => ?_
      by_cases hc : c.2 = q
      · simp [hc, hq]
      · simp [hc]
    rw [hsame]
    exact hperm i q
  · refine (hbook i).perm ((List.Perm.symm ?_).trans ((hperm i p).append_right _))
    simpa using List.filter_append_perm (fun c : Claim => decide (c.2 = p)) (claims i)

theorem Outcome.selected (h : Selected drivers states core) (hforeign : Foreign p others)
    (hothers : OthersSelected drivers states core p others)
    (hout : Outcome drivers states p others core state r) : Selected drivers states r.2 := by
  have hsettings (q : String) (hq : q ≠ p) : r.2.settings states q = core.settings states q := by
    unfold Core.settings
    rw [hout.others q hq]
  refine ⟨fun i => ⟨_, hout.held.booked i, fun q => ?_⟩, fun q setting hsetting => ?_⟩
  · rw [List.filter_append]
    by_cases hq : q = p
    · subst hq
      have hnil : (others i).filter (·.2 = q) = [] :=
        List.filter_eq_nil_iff.mpr fun c hc heq => hforeign i c hc (of_decide_eq_true heq)
      rw [filter_claimsOf, hnil, List.append_nil]
    · rw [filter_claimsOf_of_ne hq, List.nil_append, hsettings q hq]
      exact hothers i q hq
  · by_cases hq : q = p
    · subst hq
      exact hout.held.marked setting hsetting
    · rw [hsettings q hq] at hsetting
      refine marked_of_desc (h.marked q setting hsetting) fun pin hpin => ?_
      have hclaim : (pin, q) ∈ (others setting.pctldev).filter (·.2 = q) :=
        (hothers setting.pctldev q hq).mem_iff.mpr
          (List.mem_map_of_mem (mem_pinsAt.mpr ⟨setting, hsetting, hpin⟩))
      exact hout.held.frame setting.pctldev (pin, q) (List.mem_filter.mp hclaim).1

theorem Booked.owns_iff {claims : List Claim} (h : Booked (core.pctldev i) claims) :
    core.Owns p i pin ↔ (pin, p) ∈ claims := by
  constructor
  · rintro ⟨d, hd, hne, howner⟩
    obtain ⟨c, hc, rfl, howner'⟩ := h.muxOwner hd hne
    rw [howner, Option.some_inj] at howner'
    rw [howner']
    exact hc
  · intro hc
    obtain ⟨d, hd, howner⟩ := h.owner (pin, p) hc
    exact ⟨d, hd, (h.owned_iff hd).mp (by rw [howner]; rfl), howner⟩

theorem Selected.stateOwned (h : Selected drivers states core) :
    StateOwned drivers states core := by
  refine ⟨fun p i pin => ?_, h.marked⟩
  obtain ⟨claims, hbook, hperm⟩ := h.booked i
  rw [hbook.owns_iff]
  have hmem : (pin, p) ∈ claims.filter (·.2 = p) ↔ (pin, p) ∈ claims := by
    rw [List.mem_filter]
    exact and_iff_left (decide_eq_true rfl)
  rw [← hmem, (hperm p).mem_iff]
  constructor
  · intro hc
    obtain ⟨pin', hpin, heq⟩ := List.mem_map.mp hc
    rwa [← (Prod.mk.inj heq).1]
  · exact fun hpin => List.mem_map_of_mem hpin

theorem Selected.select (h : Selected drivers states core)
    (hops : ∀ i, (drivers.pmxops i).Conforms) (hwf : states.WellFormed drivers) (p : String)
    (state : Nat) :
    Selected drivers states (drivers.pinctrlSelectState states core p state).2 ∧
      SelectOk core p state (drivers.pinctrlSelectState states core p state) := by
  obtain ⟨others, hforeign, hothers, hheld⟩ := h.held p
  have hout := hheld.selectState hops hforeign hwf state
  have hnext := hout.selected h hforeign hothers
  generalize drivers.pinctrlSelectState states core p state = r at hout hnext
  have hsettings (q : String) (hq : r.2.state q = core.state q) (i pin : Nat) :
      r.2.Owns q i pin ↔ core.Owns q i pin := by
    rw [hnext.stateOwned.owns_iff, h.stateOwned.owns_iff]
    unfold Core.settings
    rw [hq]
  refine ⟨hnext, fun hzero => ?_, fun hne => ?_, fun q hq => ⟨hout.others q hq, fun i pin =>
    ⟨hsettings q (hout.others q hq) i pin, fun howns => ?_⟩⟩⟩
  · exact hout.result.elim And.right fun hneg => by omega
  · rcases hout.result with hzero | ⟨-, hnone | hback⟩
    · exact absurd hzero.1 hne
    · refine .inr ⟨hnone, fun i pin howns => ?_⟩
      rw [hnext.stateOwned.owns_iff, settings_none hnone] at howns
      cases howns
    · exact .inl ⟨hback, hsettings p hback⟩
  · have hclaim : (pin, q) ∈ (others i).filter (·.2 = q) :=
      (hothers i q hq).mem_iff.mpr
        (List.mem_map_of_mem ((h.stateOwned.owns_iff q i pin).mp howns))
    exact hout.held.frame i (pin, q) (List.mem_filter.mp hclaim).1

/-- **State selection.**  From controllers with no claims and devices with no state, whatever states
are selected and whichever steps fail: a device owns exactly the pins of its state's mux groups,
and a call that fails leaves the old state or none. -/
theorem selectState_owned (hops : ∀ i, (drivers.pmxops i).Conforms)
    (hwf : states.WellFormed drivers) {start : Core δ} (hclean : ∀ i, (start.pctldev i).Unclaimed)
    (hnone : ∀ p, start.state p = none) {calls : List (String × Nat)}
    (hrun : Runs.exec (selectStep drivers states) start calls = some core) :
    StateOwned drivers states core ∧
      ∀ p state, SelectOk core p state (drivers.pinctrlSelectState states core p state) := by
  have hstart : Selected drivers states start := by
    refine ⟨fun i => ⟨[], ⟨fun pin d hd => ?_, nofun,
      fun pin d hd _ => (hclean i pin d hd).2⟩, fun p => ?_⟩, fun p setting hsetting => ?_⟩
    · rw [(hclean i pin d hd).1]
      rfl
    · rw [settings_none (hnone p)]
      exact List.Perm.nil
    · rw [settings_none (hnone p)] at hsetting
      cases hsetting
  have hend : Selected drivers states core := by
    refine Runs.exec_invariant (C := fun _ _ => True) (fun core e core' h _ hstep => ?_) hstart
      (Runs.Along.of_forall fun _ _ => trivial) hrun
    obtain rfl := Option.some_inj.mp hstep
    exact (h.select hops hwf e.1 e.2).1
  exact ⟨hend.stateOwned, fun p state => (hend.select hops hwf p state).2⟩

theorem rtsPmxOps_conforms : rtsPmxOps.Conforms := by
  constructor
  · intro request hrequest drv pin
    obtain rfl := Option.some_inj.mp hrequest
    show (drv.1.rtsPmxRequest pin).1 ≤ 0
    have hinval : (-EINVAL : Int) ≤ 0 := by decide
    have hbusy : (-EBUSY : Int) ≤ 0 := by decide
    unfold RtsPinctrl.rtsPmxRequest
    split
    · exact hinval
    split
    · dsimp only
      split
      · exact hbusy
      · exact Int.le_refl 0
    · dsimp only
      split
      · exact hbusy
      · exact Int.le_refl 0
  · exact fun _ _ _ => Int.le_refl 0
  · intro group
    show (rtsPinGroups.getD group []).length < 2 ^ 32
    rw [List.getD_eq_getElem?_getD]
    cases hget : rtsPinGroups[group]? with
    | none => exact Nat.two_pow_pos 32
    | some pins =>
      have hall : ∀ pins ∈ rtsPinGroups, pins.length < 2 ^ 32 := by decide
      exact hall pins (List.mem_of_getElem? hget)

/-- Two controllers under the RTS3917 driver, which knows no configuration but 0. -/
def rtsDrivers : PinDrivers (RtsPinctrl × Nat) where
  pmxops := fun _ => rtsPmxOps
  pinconfApplySetting := fun _ drv which => (if which = 0 then 0 else -EINVAL, drv)

/-- The PWM has the second SD card's pads, or two serial ports, the first of which it configures as
the driver cannot; the console has the other. -/
def padStates : States := fun p state =>
  if p = "pwm" then
    if state = 0 then [⟨0, .muxGroup ⟨0, p, pwmFuncSelect, pwmsdGroupSelect⟩⟩, ⟨0, .configs 0⟩]
    else if state = 1 then [⟨0, .muxGroup ⟨1, p, uartFuncSelect, uart1GroupSelect⟩⟩,
      ⟨0, .muxGroup ⟨2, p, uartFuncSelect, uart0GroupSelect⟩⟩]
    else [⟨1, .muxGroup ⟨3, p, uartFuncSelect, uart1GroupSelect⟩⟩, ⟨1, .configs 1⟩]
  else [⟨0, .muxGroup ⟨4, p, uartFuncSelect, uart0GroupSelect⟩⟩]

theorem padStates_wellFormed : padStates.WellFormed rtsDrivers := by
  constructor
  · intro p state setting hsetting mux hmux
    unfold padStates at hsetting
    split at hsetting
    · split at hsetting
      · rcases List.mem_pair.mp hsetting with rfl | rfl
        · exact (SettingData.muxGroup.inj hmux) ▸ rfl
        · cases hmux
      split at hsetting
      · rcases List.mem_pair.mp hsetting with rfl | rfl
        · exact (SettingData.muxGroup.inj hmux) ▸ rfl
        · exact (SettingData.muxGroup.inj hmux) ▸ rfl
      · rcases List.mem_pair.mp hsetting with rfl | rfl
        · exact (SettingData.muxGroup.inj hmux) ▸ rfl
        · cases hmux
    · rw [List.mem_singleton.mp hsetting] at hmux
      cases hmux
      rfl
  · intro p state
    unfold padStates PinDrivers.GroupsDisjoint
    have hpair (s t : StateSetting)
        (h : ∀ i, (rtsDrivers.pins s i).Disjoint (rtsDrivers.pins t i)) :
        [s, t].Pairwise fun s t => ∀ i, (rtsDrivers.pins s i).Disjoint (rtsDrivers.pins t i) :=
      List.pairwise_pair.mpr h
    split
    · split
      · exact hpair _ _ fun i => List.disjoint_nil_right _
      split
      · refine hpair _ _ fun i => ?_
        by_cases hi : i = 0
        · subst hi
          refine List.disjoint_left.mpr ?_
          show ∀ pin ∈ rtsPinGroups.getD uart1GroupSelect [],
            pin ∉ rtsPinGroups.getD uart0GroupSelect []
          decide
        · rw [pins_of_ne hi]
          exact List.disjoint_nil_left _
      · exact hpair _ _ fun i => List.disjoint_nil_right _
    · exact List.pairwise_singleton _ _

def padCore : Core (RtsPinctrl × Nat) := ⟨fun _ => probed cleared, fun _ => none⟩

/-- The console is in the way of the PWM's second state, and the driver in that of its third. -/
def padCalls : List (String × Nat) :=
  [("console", 0), ("pwm", 0), ("pwm", 1), ("pwm", 2)]

theorem selectState_owned_pads : ∃ core,
    Runs.exec (selectStep rtsDrivers padStates) padCore padCalls = some core ∧
      StateOwned rtsDrivers padStates core ∧ core.state "pwm" = some 0 := by
  obtain ⟨core, hcore, hstate⟩ := Option.map_eq_some_iff.mp (by decide +kernel :
    (Runs.exec (selectStep rtsDrivers padStates) padCore padCalls).map (·.state "pwm") =
      some (some 0))
  exact ⟨core, hcore, (selectState_owned (fun _ => rtsPmxOps_conforms) padStates_wellFormed
    (fun _ => probed_unclaimed cleared) (fun _ => rfl) hcore).1, hstate⟩

end Selected

end RealtekIpcam.Pinctrl
