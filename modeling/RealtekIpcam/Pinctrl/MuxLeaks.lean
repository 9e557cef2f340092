import RealtekIpcam.Pinctrl.PinOwnership

/-!
# Mux settings that leak pins

A setting that cannot be enabled should leave no trace, and when all settings are disabled
again every pin should be free.  The use counts are made for this: a pin may be claimed by
several settings of one device, and each claim counts.  But `mux_setting` remembers the last
setting only, and `pinmux_disable_setting` frees a pin only if it is that one; and when the
driver refuses a setting, its pins lose their `mux_setting`, whichever setting it was.

`SettingOk` is the condition that stays clear of both.  Under it the book of claims is at all times
that of the settings that are enabled, whatever driver is below: `settings_release`.
-/

namespace RealtekIpcam.Pinctrl

open Function Runs

variable {δ : Type}

/-! ## The runs -/

inductive SettingOp where
  | enable (setting : PinctrlSetting)
  | disable (setting : PinctrlSetting)
  deriving DecidableEq

/-- One operation.  Beside the controller, the settings that were enabled and not disabled since. -/
def settingStep (ops : PinmuxOps δ) (s : PinctrlDev δ × List PinctrlSetting) :
    SettingOp → Option (PinctrlDev δ × List PinctrlSetting)
  | .enable setting =>
    let r := ops.pinmuxEnableSetting s.1 setting
    some (r.2, if r.1 = 0 then setting :: s.2 else s.2)
  | .disable setting => some (ops.pinmuxDisableSetting s.1 setting, s.2.erase setting)

/-- `mux_usecount`, 0 for a pin that is not registered. -/
def PinctrlDev.usecount (dev : PinctrlDev δ) (pin : Nat) : Nat :=
  ((dev.desc pin).map (·.muxUsecount.toNat)).getD 0

def PinctrlDev.muxSetting (dev : PinctrlDev δ) (pin : Nat) : Option PinctrlSetting :=
  (dev.desc pin).bind PinDesc.muxSetting

/-- The pins of the setting can all be had, but the driver refuses the function. -/
def refusesMux (ops : PinmuxOps δ) (dev : PinctrlDev δ) (setting : PinctrlSetting) : Prop :=
  let r := ops.requestPins setting.devName dev (ops.groupPins setting.group) []
  r.1 = 0 ∧ (ops.setMux r.2.2.drv setting.func setting.group).1 ≠ 0
  deriving Decidable

/-- The step stays clear of the holes.

* No count wraps, and a setting that the driver refuses finds no setting on its pins.
* A setting that is disabled is the last one on all of its pins, or on none if it is not enabled. -/
def SettingOk (ops : PinmuxOps δ) (s : PinctrlDev δ × List PinctrlSetting) : SettingOp → Prop
  | .enable setting =>
    (∀ pin ∈ ops.groupPins setting.group,
      s.1.usecount pin + (ops.groupPins setting.group).count pin < 2 ^ 32) ∧
      (refusesMux ops s.1 setting →
        ∀ pin ∈ ops.groupPins setting.group, s.1.muxSetting pin = none)
  | .disable setting =>
    ∀ pin ∈ ops.groupPins setting.group, s.1.muxSetting pin = some setting ↔ setting ∈ s.2

instance (ops : PinmuxOps δ) (s : PinctrlDev δ × List PinctrlSetting) :
    DecidablePred (SettingOk ops s)
  | .enable _ => inferInstanceAs (Decidable (_ ∧ (_ → _)))
  | .disable _ => inferInstanceAs (Decidable (∀ _ ∈ _, _))

/-- An enable that fails leaves every descriptor as it was. -/
def FailsCleanly (ops : PinmuxOps δ) (s : PinctrlDev δ × List PinctrlSetting) : SettingOp → Prop
  | .enable setting =>
    (ops.pinmuxEnableSetting s.1 setting).1 ≠ 0 →
      (ops.pinmuxEnableSetting s.1 setting).2.desc = s.1.desc
  | .disable _ => True

/-- Nobody claims any pin. -/
def PinctrlDev.Unclaimed (dev : PinctrlDev δ) : Prop :=
  ∀ pin d, dev.desc pin = some d → d.muxUsecount = 0 ∧ d.muxOwner = none ∧ d.muxSetting = none

/-! ## The book, for any driver -/

variable {ops : PinmuxOps δ} {dev dev' : PinctrlDev δ} {claims : List Claim} {pin p : Nat}
  {owner : String} {pins taken : List Nat} {setting : PinctrlSetting}

/-- No count wraps. -/
def HasRoom (claims : List Claim) : Prop := ∀ p, claimed claims p < 2 ^ 32

theorem Booked.noWrap (h : Booked dev claims) (hroom : HasRoom ((pin, owner) :: claims))
    (d : PinDesc) (hd : dev.desc pin = some d) : d.muxUsecount + 1 ≠ 0 := by
  have hlt := hroom pin
  rw [claimed_cons, if_pos rfl, ← h.usecount pin d hd] at hlt
  intro hwrap
  bv_omega

theorem bookKeeper (ops : PinmuxOps δ) : Keeper ops HasRoom Booked where
  room := fun hle hroom p => Nat.lt_of_le_of_lt (hle p) (hroom p)
  perm := Booked.perm
  booked := id
  request := by
    intro dev claims pin owner r h hr
    obtain ⟨hfail, hok⟩ := h.request hr
    exact ⟨fun hne => h.of_desc (hfail hne), fun h0 hroom => hok h0 (h.noWrap hroom)⟩
  free := fun h hf => h.pinFree hf
  mark := fun h hd hmark => h.mark hd hmark
  setMux := fun h _ _ => h.of_desc rfl

theorem Booked.usecount_eq (h : Booked dev claims) (p : Nat) :
    dev.usecount p = claimed claims p := by
  unfold PinctrlDev.usecount
  cases hd : dev.desc p with
  | some d => exact h.usecount p d hd
  | none =>
    by_contra hne
    obtain ⟨c, hc, rfl⟩ := exists_claim (Ne.symm hne)
    obtain ⟨d, hd', -⟩ := h.owner c hc
    rw [hd] at hd'
    cases hd'

theorem Booked.hasRoom (h : Booked dev claims) (hclaims : HasRoom claims)
    (hlt : ∀ pin ∈ pins, dev.usecount pin + pins.count pin < 2 ^ 32) :
    HasRoom (claimsOf owner pins ++ claims) := by
  intro p
  rw [claimed_append, claimed_claimsOf]
  by_cases hp : p ∈ pins
  · have := hlt p hp
    rw [h.usecount_eq p] at this
    omega
  · rw [List.count_eq_zero_of_not_mem hp, Nat.zero_add]
    exact hclaims p

theorem Booked.hasRoom_self (h : Booked dev claims) : HasRoom claims := by
  intro p
  by_cases hzero : claimed claims p = 0
  · rw [hzero]
    exact Nat.two_pow_pos 32
  · obtain ⟨c, hc, rfl⟩ := exists_claim hzero
    obtain ⟨d, hd, -⟩ := h.owner c hc
    rw [← h.usecount c.1 d hd]
    exact d.muxUsecount.isLt

/-! ## Rolling back -/

theorem pinFree_desc (h : dev.desc = dev'.desc) (pin : Nat) :
    (ops.pinFree dev pin false).2.desc = (ops.pinFree dev' pin false).2.desc := by
  unfold PinmuxOps.pinFree
  rw [h]
  cases dev'.desc pin with
  | none => exact h
  | some d =>
    simp only [Bool.false_eq_true, if_false]
    split
    · exact h
    split
    · exact congrArg (update · pin _) h
    · rfl

theorem freePins_desc (h : dev.desc = dev'.desc) (taken : List Nat) :
    (ops.freePins dev taken).desc = (ops.freePins dev' taken).desc := by
  induction taken generalizing dev dev' with
  | nil => exact h
  | cons pin taken ih => exact ih (pinFree_desc h pin)

theorem freePins_append (ops : PinmuxOps δ) (dev : PinctrlDev δ) (taken more : List Nat) :
    ops.freePins dev (taken ++ more) = ops.freePins (ops.freePins dev taken) more := by
  induction taken generalizing dev with
  | nil => rfl
  | cons pin taken ih => exact ih (ops.pinFree dev pin false).2

theorem setDesc_setDesc_desc {d d' : PinDesc} (hd : dev.desc pin = some d) (drv : δ) :
    (({ dev with drv := drv }.setDesc pin d').setDesc pin d).desc = dev.desc := by
  unfold PinctrlDev.setDesc
  show update (update dev.desc pin _) pin _ = _
  rw [update_idem, ← hd, update_eq_self]

/-- **One pin.**  Freeing a pin that was just requested undoes the request. -/
theorem pinFree_request (h : Booked dev claims) {r : Int × PinctrlDev δ}
    (hr : MuxRequest ops dev pin owner r) (hret : r.1 = 0)
    (hwrap : ∀ d, dev.desc pin = some d → d.muxUsecount + 1 ≠ 0) :
    (ops.pinFree r.2 pin false).2.desc = dev.desc := by
  cases hr with
  | refused => exact absurd hret (by decide : (-EINVAL : Int) ≠ 0)
  | failed hne => exact absurd hret hne
  | again d hd hclaimed howner hnowrap =>
    -- The count goes up by one, and is not the last when it goes down again.
    have hat : (dev.setDesc pin { d with muxUsecount := d.muxUsecount + 1 }).desc pin =
        some { d with muxUsecount := d.muxUsecount + 1 } := by
      rw [PinctrlDev.setDesc_desc, if_pos rfl]
    have hback : d.muxUsecount + 1 - 1 = d.muxUsecount := by bv_omega
    unfold PinmuxOps.pinFree
    rw [hat]
    simp only [Bool.false_eq_true, if_false, if_neg hnowrap, hback, ne_eq, hclaimed,
      not_false_eq_true, if_true]
    exact setDesc_setDesc_desc hd dev.drv
  | first d hd hzero hacquire =>
    obtain ⟨hnone, hset⟩ := h.free pin d hd hzero
    have hat : ({ dev with drv := (ops.pinAcquire dev.drv pin false).2 }.setDesc pin
        { d with muxUsecount := 1, muxOwner := some owner }).desc pin =
        some { d with muxUsecount := 1, muxOwner := some owner } := by
      rw [PinctrlDev.setDesc_desc, if_pos rfl]
    have hold : { d with muxUsecount := 0, muxOwner := none, muxSetting := none } = d := by
      rw [← hzero, ← hnone, ← hset]
    unfold PinmuxOps.pinFree
    rw [hat]
    simp only [Bool.false_eq_true, if_false, if_neg (by decide : ¬ (1 : Word) = 0),
      if_neg (by decide : ¬ (1 : Word) - 1 ≠ 0)]
    rw [hold]
    exact setDesc_setDesc_desc hd _
  | wrapped d hd hw howner hacquire => exact absurd hw (hwrap d hd)

theorem muxSetting_request {r : Int × PinctrlDev δ} (hr : MuxRequest ops dev pin owner r)
    (p : Nat) : r.2.muxSetting p = dev.muxSetting p := by
  have hset (d d' : PinDesc) (drv : δ) (hd : dev.desc pin = some d)
      (hsame : d'.muxSetting = d.muxSetting) :
      ({ dev with drv := drv }.setDesc pin d').muxSetting p = dev.muxSetting p := by
    unfold PinctrlDev.muxSetting
    rw [PinctrlDev.setDesc_desc]
    by_cases hp : p = pin
    · rw [if_pos hp, hp, hd, Option.bind_some, Option.bind_some, hsame]
    · rw [if_neg hp]
  cases hr with
  | refused => rfl
  | failed hne => rfl
  | again d hd hclaimed howner hnowrap => exact hset d _ dev.drv hd rfl
  | first d hd hzero hacquire => exact hset d _ _ hd rfl
  | wrapped d hd hw howner hacquire => exact hset d _ _ hd rfl

theorem own_of_request (h : Booked dev claims) {r : Int × PinctrlDev δ}
    (hr : MuxRequest ops dev pin owner r) (hret : r.1 = 0) :
    ∀ c ∈ claims, c.1 = pin → c.2 = owner := by
  rintro c hc rfl
  obtain ⟨d', hd', howner'⟩ := h.owner c hc
  cases hr with
  | refused => exact absurd hret (by decide : (-EINVAL : Int) ≠ 0)
  | failed hne => exact absurd hret hne
  | again d hd hclaimed howner hnowrap =>
    rw [hd', Option.some_inj] at hd
    rw [← hd, howner', Option.some_inj] at howner
    exact howner
  | first d hd hzero hacquire =>
    rw [hd', Option.some_inj] at hd
    rw [← hd] at hzero
    rw [(h.free c.1 d' hd' hzero).1] at howner'
    cases howner'
  | wrapped d hd hw howner hacquire =>
    rw [hd', Option.some_inj] at hd
    rw [← hd, howner', Option.some_inj] at howner
    exact howner

/-- Claims on the pins would not wrap a count.  A pin that somebody else claims is not looked at:
it cannot be had. -/
def RoomFor (owner : String) (pins : List Nat) (claims : List Claim) : Prop :=
  ∀ p, (∀ c ∈ claims, c.1 = p → c.2 = owner) → pins.count p + claimed claims p < 2 ^ 32

theorem HasRoom.roomFor (hroom : HasRoom (claimsOf owner pins ++ claims)) :
    RoomFor owner pins claims := by
  intro p _
  rw [← claimed_claimsOf owner pins p, ← claimed_append]
  exact hroom p

theorem RoomFor.tail (hroom : RoomFor owner (pin :: pins) claims) :
    RoomFor owner pins ((pin, owner) :: claims) := by
  intro p hp
  have hlt := hroom p fun c hc => hp c (List.mem_cons_of_mem _ hc)
  rw [claimed_cons]
  rw [List.count_cons] at hlt
  by_cases heq : pin = p
  · rw [if_pos heq]
    rw [if_pos (beq_iff_eq.mpr heq)] at hlt
    omega
  · rw [if_neg heq]
    omega

/-- **All pins.**  Freeing the pins that the loop has taken undoes the loop, however far it came.
Meanwhile no setting changes.  If it came to the end, nobody else claims any of the pins. -/
theorem freePins_requestPins (ops : PinmuxOps δ) (h : Booked dev claims) (taken : List Nat)
    (hroom : RoomFor owner pins claims) :
    ∃ more, (ops.requestPins owner dev pins taken).2.1 = more ++ taken ∧
      (ops.freePins (ops.requestPins owner dev pins taken).2.2 more).desc = dev.desc ∧
      (∀ p, (ops.requestPins owner dev pins taken).2.2.muxSetting p = dev.muxSetting p) ∧
      ((ops.requestPins owner dev pins taken).1 = 0 →
        ∀ c ∈ claims, c.1 ∈ pins → c.2 = owner) := by
  induction pins generalizing dev claims taken with
  | nil => exact ⟨[], rfl, rfl, fun _ => rfl, nofun⟩
  | cons pin pins ih =>
    have hreq := muxRequest ops owner (h.free pin)
    unfold PinmuxOps.requestPins
    dsimp only
    by_cases hret : (ops.pinRequest dev pin owner false).1 = 0
    · rw [if_neg (not_not_intro hret)]
      have hown := own_of_request h hreq hret
      have hnowrap : ∀ d, dev.desc pin = some d → d.muxUsecount + 1 ≠ 0 := by
        intro d hd hwrap
        have hlt := hroom pin hown
        rw [List.count_cons_self, ← h.usecount pin d hd] at hlt
        bv_omega
      obtain ⟨more, htaken, hdesc, hset, hall⟩ :=
        ih ((h.request hreq).2 hret hnowrap) (pin :: taken) hroom.tail
      refine ⟨more ++ [pin], ?_, ?_, fun p => (hset p).trans (muxSetting_request hreq p),
        fun h0 c hc hmem => ?_⟩
      · rw [htaken, List.append_assoc]
        rfl
      · rw [freePins_append]
        exact (pinFree_desc hdesc pin).trans (pinFree_request h hreq hret hnowrap)
      · rcases List.mem_cons.mp hmem with heq | hmem
        · exact hown c hc heq
        · exact hall h0 c (List.mem_cons_of_mem _ hc) hmem
    · rw [if_pos hret]
      exact ⟨[], rfl, (h.request hreq).1 hret, muxSetting_request hreq, fun h0 => absurd h0 hret⟩

theorem markPins_desc (mark : Option PinctrlSetting) (dev : PinctrlDev δ) (pins : List Nat)
    (p : Nat) : (dev.markPins mark pins).desc p =
      (dev.desc p).map fun d => if p ∈ pins then { d with muxSetting := mark } else d := by
  induction pins generalizing dev with
  | nil => simp [PinctrlDev.markPins]
  | cons pin pins ih =>
    unfold PinctrlDev.markPins
    cases hd : dev.desc pin with
    | none =>
      rw [ih]
      by_cases hp : p = pin
      · rw [hp, hd]
        rfl
      · simp [hp]
    | some d =>
      dsimp only
      rw [ih, PinctrlDev.setDesc_desc]
      by_cases hp : p = pin
      · subst hp
        rw [if_pos rfl, hd]
        simp
      · simp [hp]

theorem markPins_markPins (mark : Option PinctrlSetting) (drv : δ)
    (hnone : ∀ pin ∈ pins, dev.muxSetting pin = none) :
    (PinctrlDev.markPins none { dev.markPins mark pins with drv := drv } pins).desc = dev.desc := by
  funext p
  rw [markPins_desc]
  show ((dev.markPins mark pins).desc p).map _ = _
  rw [markPins_desc, Option.map_map]
  cases hd : dev.desc p with
  | none => rfl
  | some d =>
    rw [Option.map_some, Option.some_inj]
    by_cases hp : p ∈ pins
    · have hset : d.muxSetting = none := by
        have := hnone p hp
        unfold PinctrlDev.muxSetting at this
        rwa [hd, Option.bind_some] at this
      simp only [comp, if_pos hp]
      rw [← hset]
    · simp only [comp, if_neg hp]

/-- **Failing.**  An enable that fails, and does not take the setting off a pin, leaves every
descriptor as it was. -/
theorem enable_desc_of_ne (h : Booked dev claims)
    (hroom : RoomFor setting.devName (ops.groupPins setting.group) claims)
    (hrefuse : refusesMux ops dev setting →
      ∀ pin ∈ ops.groupPins setting.group, dev.muxSetting pin = none)
    (hret : (ops.pinmuxEnableSetting dev setting).1 ≠ 0) :
    (ops.pinmuxEnableSetting dev setting).2.desc = dev.desc := by
  obtain ⟨more, htaken, hdesc, hset, -⟩ := freePins_requestPins ops h [] hroom
  rw [List.append_nil] at htaken
  unfold refusesMux at hrefuse
  unfold PinmuxOps.pinmuxEnableSetting at hret ⊢
  dsimp only at hrefuse hret ⊢
  by_cases hreq : (ops.requestPins setting.devName dev (ops.groupPins setting.group) []).1 = 0
  · rw [if_neg (not_not_intro hreq)] at hret ⊢
    have hdrv (m : Option PinctrlSetting) (dev : PinctrlDev δ) (pins : List Nat) :
        (dev.markPins m pins).drv = dev.drv := by
      induction pins generalizing dev with
      | nil => rfl
      | cons pin pins ih =>
        unfold PinctrlDev.markPins
        cases dev.desc pin with
        | none => exact ih dev
        | some d => exact ih (dev.setDesc pin { d with muxSetting := m })
    rw [hdrv] at hret ⊢
    split
    · rename_i hmux
      have hnone := hrefuse ⟨hreq, hmux⟩
      rw [htaken]
      refine (freePins_desc ?_ more).trans hdesc
      exact markPins_markPins (some setting) _ fun pin hpin => (hset pin).trans (hnone pin hpin)
    · rename_i hmux
      rw [if_neg hmux] at hret
      exact absurd rfl hret
  · rw [if_pos hreq, htaken]
    exact hdesc

/-- Disabling gives all pins back. -/
theorem disablePins_all (h : Booked dev (claimsOf owner pins ++ claims))
    (hset : ∀ pin ∈ pins, dev.muxSetting pin = some setting) :
    Booked (ops.disablePins setting dev pins) claims := by
  induction pins generalizing dev with
  | nil => exact h
  | cons pin pins ih =>
    have hpin := hset pin List.mem_cons_self
    have hfree := muxFree ops dev pin
    have hbook : Booked (ops.pinFree dev pin false).2 (claimsOf owner pins ++ claims) :=
      h.pinFree hfree
    unfold PinmuxOps.disablePins
    unfold PinctrlDev.muxSetting at hpin
    cases hd : dev.desc pin with
    | none =>
      rw [hd] at hpin
      cases hpin
    | some d =>
      rw [hd, Option.bind_some] at hpin
      dsimp only
      rw [if_pos hpin]
      refine ih hbook fun p hp => ?_
      have hold := hset p (List.mem_cons_of_mem pin hp)
      -- A pin that is listed again is still claimed, so its setting is not cleared yet.
      have hcount : claimed (claimsOf owner pins ++ claims) p ≠ 0 := by
        rw [claimed_append, claimed_claimsOf]
        have := List.count_pos_iff.mpr hp
        omega
      rw [← hbook.usecount_eq p] at hcount
      generalize (ops.pinFree dev pin false).2 = dev' at hfree hcount
      cases hfree with
      | idle _ => exact hold
      | shared e he hclaimed hmore =>
        unfold PinctrlDev.muxSetting at hold ⊢
        rw [PinctrlDev.setDesc_desc]
        by_cases heq : p = pin
        · rw [heq, he] at hold
          rw [if_pos heq]
          exact hold
        · rw [if_neg heq]
          exact hold
      | last e he hlast =>
        unfold PinctrlDev.usecount at hcount
        unfold PinctrlDev.muxSetting at hold ⊢
        rw [PinctrlDev.setDesc_desc] at hcount ⊢
        by_cases heq : p = pin
        · rw [if_pos heq] at hcount
          exact absurd rfl hcount
        · rw [if_neg heq]
          exact hold

theorem disablePins_none (hset : ∀ pin ∈ pins, dev.muxSetting pin ≠ some setting) :
    ops.disablePins setting dev pins = dev := by
  induction pins with
  | nil => rfl
  | cons pin pins ih =>
    have htail := ih fun p hp => hset p (List.mem_cons_of_mem pin hp)
    have hpin := hset pin List.mem_cons_self
    unfold PinmuxOps.disablePins
    unfold PinctrlDev.muxSetting at hpin
    cases hd : dev.desc pin with
    | none => exact htail
    | some d =>
      rw [hd, Option.bind_some] at hpin
      dsimp only
      rw [if_neg hpin]
      exact htail

/-! ## Runs -/

variable {s s' : PinctrlDev δ × List PinctrlSetting} {op : SettingOp} {es : List SettingOp}

/-- **The step.**  The book stays that of the settings that are enabled. -/
theorem booked_settingStep (h : Booked s.1 (claimsOfSettings ops s.2)) (hok : SettingOk ops s op)
    (hstep : settingStep ops s op = some s') : Booked s'.1 (claimsOfSettings ops s'.2) := by
  cases op with
  | enable setting =>
    obtain ⟨hfail, hdone⟩ :=
      (bookKeeper ops).enable setting h (h.hasRoom h.hasRoom_self hok.1)
    have hnext : some ((ops.pinmuxEnableSetting s.1 setting).2,
        if (ops.pinmuxEnableSetting s.1 setting).1 = 0 then setting :: s.2 else s.2) = some s' :=
      hstep
    obtain rfl := Option.some_inj.mp hnext
    by_cases hret : (ops.pinmuxEnableSetting s.1 setting).1 = 0
    · rw [if_pos hret]
      exact hdone hret
    · rw [if_neg hret]
      exact hfail hret
  | disable setting =>
    have hnext : some (ops.pinmuxDisableSetting s.1 setting, s.2.erase setting) = some s' := hstep
    obtain rfl := Option.some_inj.mp hnext
    by_cases hmem : setting ∈ s.2
    · exact disablePins_all (h.perm (claimsOfSettings_erase ops hmem))
        fun pin hpin => (hok pin hpin).mpr hmem
    · rw [List.erase_of_not_mem hmem]
      show Booked (ops.disablePins setting s.1 _) _
      rw [disablePins_none fun pin hpin hset => hmem ((hok pin hpin).mp hset)]
      exact h

/-- **Settings leave nothing behind.**  From a controller with no claims, in every run that stays
clear of the holes, every enable that fails leaves the descriptors as they were, and whenever all
settings are disabled again no pin is claimed. -/
theorem settings_release (hclean : dev.Unclaimed)
    (hok : Along (settingStep ops) (SettingOk ops) (dev, []) es) :
    Along (settingStep ops) (FailsCleanly ops) (dev, []) es ∧
      ∀ dev', exec (settingStep ops) (dev, []) es = some (dev', []) → dev'.Unclaimed := by
  have hstart : Booked dev (claimsOfSettings ops []) := by
    refine ⟨fun p d hd => ?_, nofun, fun p d hd _ => ?_⟩
    · rw [(hclean p d hd).1]
      rfl
    · exact (hclean p d hd).2
  refine ⟨hok.of_invariant (fun _ _ _ h hC hstep => booked_settingStep h hC hstep)
    (fun s op h hC => ?_) hstart, fun dev' hrun => ?_⟩
  · cases op with
    | enable setting =>
      exact enable_desc_of_ne h (h.hasRoom h.hasRoom_self hC.1).roomFor hC.2
    | disable setting => trivial
  · have hend := exec_invariant
      (fun _ _ _ h hC hstep => booked_settingStep h hC hstep) hstart hok hrun
    intro pin d hd
    have hzero : d.muxUsecount = 0 := BitVec.eq_of_toNat_eq (hend.usecount pin d hd)
    exact ⟨hzero, hend.free pin d hd hzero⟩

theorem probed_unclaimed (rtspc : RtsPinctrl) : (probed rtspc).Unclaimed := by
  intro pin d hd
  have hite : (if pin < rtsNumPins then some ⟨0, none, none, none⟩ else none) = some d := hd
  split at hite
  · rw [← Option.some_inj.mp hite]
    exact ⟨rfl, rfl, rfl⟩
  · cases hite

/-- The pads of the PWM on the second SD card's pins, one of them listed twice, and of the card. -/
def pwmsdSetting : PinctrlSetting := ⟨0, "mmc", pwmFuncSelect, pwmsdGroupSelect⟩
def sdio1Setting : PinctrlSetting := ⟨1, "mmc", sdio1FuncSelect, sdio1GroupSelect⟩

/-- The two settings in turn, and another device's in vain while the first is enabled. -/
def alternateSettings : List SettingOp :=
  [.enable pwmsdSetting, .enable ⟨2, "pwm", gpioFuncSelect, gpioGroupSelect⟩, .disable pwmsdSetting,
    .enable sdio1Setting, .disable pwmsdSetting, .disable sdio1Setting]

theorem settings_release_alternate :
    Along (settingStep rtsPmxOps) (FailsCleanly rtsPmxOps) (probed cleared, [])
        alternateSettings ∧
      ∃ dev', exec (settingStep rtsPmxOps) (probed cleared, []) alternateSettings =
        some (dev', []) ∧ dev'.Unclaimed := by
  have hok : Along (settingStep rtsPmxOps) (SettingOk rtsPmxOps) (probed cleared, [])
      alternateSettings := by
    decide +kernel
  obtain ⟨hclean, hend⟩ := settings_release (probed_unclaimed cleared) hok
  have hnone : (exec (settingStep rtsPmxOps) (probed cleared, []) alternateSettings).map
      Prod.snd = some [] := by
    decide +kernel
  obtain ⟨⟨dev', _⟩, hrun, rfl⟩ := Option.map_eq_some_iff.mp hnone
  exact ⟨hclean, dev', hrun, hend dev' hrun⟩

/-- The driver, but for a function that it refuses. -/
def refusingOps : PinmuxOps (RtsPinctrl × Nat) :=
  { rtsPmxOps with
    setMux := fun drv func group =>
      if func = sdio1FuncSelect then (-EINVAL, drv) else rtsPmxOps.setMux drv func group }

/-- **The holes.**  Two settings of one device that share pin 41: after both are disabled it
is still claimed.  And where the driver refuses the second, pin 41 loses its setting, the
first one. -/
theorem not_settings_release_overlap :
    (exec (settingStep rtsPmxOps) (probed cleared, [])
        [.enable pwmsdSetting, .enable sdio1Setting, .disable pwmsdSetting,
          .disable sdio1Setting]).map (fun s => (s.2, s.1.desc 41)) =
      some ([], some ⟨1, some "mmc", some sdio1Setting, none⟩) ∧
      (exec (settingStep refusingOps) (probed cleared, []) [.enable pwmsdSetting]).map
        (fun s => ((refusingOps.pinmuxEnableSetting s.1 sdio1Setting).1, s.1.muxSetting 41,
          (refusingOps.pinmuxEnableSetting s.1 sdio1Setting).2.muxSetting 41)) =
      some (-EINVAL, some pwmsdSetting, none) := by
  decide +kernel

end RealtekIpcam.Pinctrl
