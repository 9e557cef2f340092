import RealtekIpcam.Lib.Runs
import RealtekIpcam.Pwm.Attributes

/-!
# Four independent channels

What a user of the attributes may think of is `Channel`, with the steps `Channel.Step`: a write
that succeeds does to one channel what it says, and one that fails does nothing.  The driver is
like that as long as a request finds the channel that it is for, a channel that is enabled
has a duty and a period that the core takes, and a channel is disabled before it is released:
`channels_independent`.  It is not, in any of the three cases: `not_channels_independent`.
-/

namespace RealtekIpcam.Pwm

open Function Runs

variable {η : Type}

/-! ## The channels -/

/-- A channel: whether it is requested, the duty and the period last stored for it, and its
registers. -/
structure Channel where
  requested : Bool
  dutyNs : Int
  periodNs : Int
  en : Nat
  high : Nat
  low : Nat
  deriving DecidableEq

/-- What a write to an attribute may do to its channel, with the error it returns if it fails. -/
inductive Channel.Step (busclk : Busclk) :
    PwmAttr → Except Int Int → Channel → Option Int → Channel → Prop
  /-- A write that returns an error does nothing. -/
  | error (attr : PwmAttr) (val : Except Int Int) (c : Channel) (err : Int) :
    Step busclk attr val c (some err) c
  | request (c : Channel) (v : Int) (hv : v ≠ 0) (hfree : c.requested = false) :
    Step busclk .request (.ok v) c none { c with requested := true }
  /-- A channel that is released is not driven. -/
  | release (c : Channel) (hen : c.en = 0) :
    Step busclk .request (.ok 0) c none { c with requested := false }
  | dutyNs (c : Channel) (v : Int) (hreq : c.requested = true) :
    Step busclk .dutyNs (.ok v) c none { c with dutyNs := v }
  | periodNs (c : Channel) (v : Int) (hreq : c.requested = true) :
    Step busclk .periodNs (.ok v) c none { c with periodNs := v }
  /-- The channel is driven with what was last stored. -/
  | enable (c : Channel) (v : Int) (hv : v ≠ 0) (hreq : c.requested = true) :
    Step busclk .enable (.ok v) c none { c with
      en := 1
      high := highCount busclk c.dutyNs
      low := lowCount busclk c.dutyNs c.periodNs }
  | disable (c : Channel) (hreq : c.requested = true) :
    Step busclk .enable (.ok 0) c none { c with en := 0 }

theorem Channel.Step.en_of_enable {busclk : Busclk} {v : Int} {c c' : Channel}
    (h : Step busclk .enable (.ok v) c none c') (hv : v ≠ 0) : c'.en = 1 := by
  cases h with
  | enable => rfl
  | disable => exact absurd rfl hv

theorem Channel.Step.en_of_release {busclk : Busclk} {c c' : Channel}
    (h : Step busclk .request (.ok 0) c none c') : c.en = 0 := by
  cases h with
  | request _ _ hv _ => exact absurd rfl hv
  | release _ hen => exact hen

def RtsxPwmChip.channel (rts : RtsxPwmChip) (i : Nat) : Channel where
  requested := (rts.desc i).pwm.isSome
  dutyNs := (rts.desc i).dutyNs
  periodNs := (rts.desc i).periodNs
  en := rts.chip.hw (pwmReg i xb2PwmEn)
  high := rts.chip.hw (pwmReg i xb2PwmHigh)
  low := rts.chip.hw (pwmReg i xb2PwmLow)

/-- A write to an attribute is a step of its channel, and touches nothing else: no other channel, no
register outside of its block, no other chip. -/
structure WriteOk (s : PwmSystem η) (rts : RtsxPwmChip) (i : Nat) (attr : PwmAttr)
    (val : Except Int Int) (r : Option Int × PwmSystem η) (rts' : RtsxPwmChip) : Prop where
  chip : r.2.rts = some rts'
  step : Channel.Step rts.busclk attr val (rts.channel i) r.1 (rts'.channel i)
  channels : ∀ j, j ≠ i → rts'.channel j = rts.channel j
  registers : ∀ a, ¬ (i * 0x40 ≤ a ∧ a < i * 0x40 + 0x40) → rts'.chip.hw a = rts.chip.hw a
  others : r.2.others = s.others

/-- A step that is a write is one as it should be. -/
def StepOk (s : PwmSystem η) : PwmEvent η → Prop
  | .write i attr val => ∀ rts, s.rts = some rts → i < numPwm →
    ∃ rts', WriteOk s rts i attr val (attrStore s rts i attr val) rts'
  | _ => True

/-- Only requested channels are driven. -/
def Driven (s : PwmSystem η) : Prop :=
  ∀ rts, s.rts = some rts → ∀ i < numPwm, (rts.channel i).en ≠ 0 → (rts.channel i).requested = true

/-! ## The condition -/

/-- The device can be requested. -/
def PwmSystem.isFree (s : PwmSystem η) (dev : ChipRef × Nat) : Bool :=
  match dev.1 with
  | .rts => s.rts.any fun rts => !(rts.chip.pwms dev.2).requested
  | .other id => (s.others id).any fun chip => !(chip.pwms dev.2).requested

/-- The write stays clear of the driver's three gaps. -/
def WriteCond (s : PwmSystem η) (rts : RtsxPwmChip) (i : Nat) (attr : PwmAttr) (val : Int) : Prop :=
  match attr with
  | .request =>
    if val ≠ 0 then
      (rts.desc i).pwm = none → ∀ dev, s.numbers.tree i = some dev → s.isFree dev = true →
        dev = (.rts, i)
    else rts.chip.hw (pwmReg i xb2PwmEn) = 0
  | .enable => val ≠ 0 → (rts.desc i).pwm ≠ none →
    0 ≤ (rts.desc i).dutyNs ∧ (rts.desc i).dutyNs ≤ (rts.desc i).periodNs ∧
      0 < (rts.desc i).periodNs
  | _ => True

/-- The same of an event. -/
def StepCond (s : PwmSystem η) : PwmEvent η → Prop
  | .write i attr (.ok val) => ∀ rts, s.rts = some rts → i < numPwm → WriteCond s rts i attr val
  | _ => True

instance (s : PwmSystem η) (rts : RtsxPwmChip) (i : Nat) (val : Int) :
    ∀ attr, Decidable (WriteCond s rts i attr val)
  | .request =>
    have : Decidable (∀ dev, s.numbers.tree i = some dev → s.isFree dev = true → dev = (.rts, i)) :=
      Option.decidableForallMem (p := fun dev => s.isFree dev = true → dev = (.rts, i)) _
    inferInstanceAs (Decidable (if val ≠ 0 then _ → _ else _))
  | .dutyNs => isTrue trivial
  | .periodNs => isTrue trivial
  | .enable => inferInstanceAs (Decidable (_ → _ → _))

instance (s : PwmSystem η) : ∀ e, Decidable (StepCond s e)
  | .write i attr (.ok val) =>
    Option.decidableForallMem (p := fun rts => i < numPwm → WriteCond s rts i attr val) s.rts
  | .write _ _ (.error _) => isTrue trivial
  | .add .. => isTrue trivial
  | .remove _ => isTrue trivial
  | .probe .. => isTrue trivial

theorem pwmWritel_apply (mmio : Mmio) (num offset val a : Nat) :
    pwmWritel mmio num offset val a = if a = pwmReg num offset then val else mmio a :=
  update_apply mmio _ _ a

/-! ## The core above this driver -/

/-- The device's state and the registers are changed together. -/
def PwmChip.program (chip : PwmChip η) (i : Nat) (state : PwmState) (hw : η) : PwmChip η :=
  { chip.setState i state with hw := hw }

section Calls

variable {chip : PwmChip Mmio} {busclk : Busclk} {i : Nat} {state : PwmState}

theorem applyPolarity_same (chip : PwmChip Mmio) (i : Nat) :
    applyPolarity chip i (chip.pwms i).state.polarity = (0, chip) := if_pos rfl

theorem program_state (chip : PwmChip Mmio) (i : Nat) (state : PwmState) (hw : Mmio) :
    ((chip.program i state hw).pwms i).state = state := by
  show (update chip.pwms i { chip.pwms i with state := state } i).state = state
  rw [update_self]

theorem program_pwms_of_ne (chip : PwmChip Mmio) (state : PwmState) (hw : Mmio) {j : Nat}
    (hj : j ≠ i) : (chip.program i state hw).pwms j = chip.pwms j :=
  update_of_ne hj _ _

theorem pwmApplyState_config (hops : chip.ops = rtsxPwmOps busclk) {duty period : Nat}
    (hle : duty ≤ period) (hpos : 0 < period)
    (hdiff : ¬ (period = (chip.pwms i).state.period ∧ duty = (chip.pwms i).state.dutyCycle)) :
    pwmApplyState chip i { (chip.pwms i).state with dutyCycle := duty, period := period } =
      (0, chip.program i { (chip.pwms i).state with dutyCycle := duty, period := period }
        (rtsxPwmConfig busclk chip.hw i duty period).2) := by
  have hne : { (chip.pwms i).state with dutyCycle := duty, period := period } ≠
      (chip.pwms i).state := by
    intro heq
    rw [← heq] at hdiff
    exact hdiff ⟨rfl, rfl⟩
  have happly : chip.ops.apply = none := by
    rw [hops]
    rfl
  have hconfig : applyConfig chip i period duty =
      (0, chip.program i { (chip.pwms i).state with dutyCycle := duty, period := period }
        (rtsxPwmConfig busclk chip.hw i duty period).2) := by
    have hcall : chip.ops.config = rtsxPwmConfig busclk := by
      rw [hops]
      rfl
    unfold applyConfig
    rw [if_neg hdiff, hcall]
    rfl
  unfold pwmApplyState
  rw [if_neg (by dsimp only; omega), if_neg hne, happly]
  dsimp only
  rw [applyPolarity_same]
  dsimp only
  rw [if_neg (by decide), hconfig]
  dsimp only
  rw [if_neg (by decide)]
  unfold applyEnabled
  rw [program_state]
  exact if_pos rfl

theorem pwmApplyState_enabled (hops : chip.ops = rtsxPwmOps busclk) {enabled : Bool}
    (hle : (chip.pwms i).state.dutyCycle ≤ (chip.pwms i).state.period)
    (hpos : 0 < (chip.pwms i).state.period) (hdiff : enabled ≠ (chip.pwms i).state.enabled) :
    pwmApplyState chip i { (chip.pwms i).state with enabled := enabled } =
      (0, chip.program i { (chip.pwms i).state with enabled := enabled }
        (pwmWritel chip.hw i xb2PwmEn (if enabled then 1 else 0))) := by
  have hne : { (chip.pwms i).state with enabled := enabled } ≠ (chip.pwms i).state := by
    intro heq
    rw [← heq] at hdiff
    exact hdiff rfl
  have happly : chip.ops.apply = none := by
    rw [hops]
    rfl
  unfold pwmApplyState
  rw [if_neg (by dsimp only; omega), if_neg hne, happly]
  dsimp only
  rw [applyPolarity_same]
  dsimp only
  rw [if_neg (by decide)]
  have hconfig : applyConfig chip i (chip.pwms i).state.period (chip.pwms i).state.dutyCycle =
      (0, chip) := if_pos ⟨rfl, rfl⟩
  rw [hconfig]
  dsimp only
  rw [if_neg (by decide)]
  have hon : chip.ops.enable = rtsxPwmEnable := by
    rw [hops]
    rfl
  have hoff : chip.ops.disable = rtsxPwmDisable := by
    rw [hops]
    rfl
  unfold applyEnabled
  rw [if_neg hdiff, hon, hoff]
  cases enabled <;> rfl

theorem pwmConfig_rts (hops : chip.ops = rtsxPwmOps busclk) {duty period : Nat}
    (hle : duty ≤ period) (hpos : 0 < period) :
    (pwmConfig duty period chip i).2 = chip ∧
        (chip.pwms i).state.dutyCycle = duty ∧ (chip.pwms i).state.period = period ∨
      (pwmConfig duty period chip i).2 =
        chip.program i { (chip.pwms i).state with dutyCycle := duty, period := period }
          (rtsxPwmConfig busclk chip.hw i duty period).2 := by
  unfold pwmConfig
  rw [if_neg (by omega)]
  dsimp only
  split
  · rename_i hsame
    exact .inl ⟨rfl, by omega, by omega⟩
  · rename_i hdiff
    right
    rw [Int.toNat_natCast, Int.toNat_natCast, pwmApplyState_config hops hle hpos (by omega)]

theorem pwmEnable_rts (hops : chip.ops = rtsxPwmOps busclk)
    (hle : (chip.pwms i).state.dutyCycle ≤ (chip.pwms i).state.period)
    (hpos : 0 < (chip.pwms i).state.period) :
    (pwmEnable chip i).2 = chip ∧ (chip.pwms i).state.enabled = true ∨
      (pwmEnable chip i).2 = chip.program i { (chip.pwms i).state with enabled := true }
        (pwmWritel chip.hw i xb2PwmEn 1) := by
  unfold pwmEnable
  dsimp only
  split
  · rename_i hen
    exact .inl ⟨rfl, hen⟩
  · rename_i hen
    right
    rw [pwmApplyState_enabled hops hle hpos (Ne.symm hen), if_pos rfl]

theorem pwmDisable_rts (hops : chip.ops = rtsxPwmOps busclk)
    (hle : (chip.pwms i).state.dutyCycle ≤ (chip.pwms i).state.period)
    (hpos : (chip.pwms i).state.enabled = true → 0 < (chip.pwms i).state.period) :
    pwmDisable chip i = chip ∧ (chip.pwms i).state.enabled = false ∨
      pwmDisable chip i = chip.program i { (chip.pwms i).state with enabled := false }
        (pwmWritel chip.hw i xb2PwmEn 0) := by
  unfold pwmDisable
  dsimp only
  cases hen : (chip.pwms i).state.enabled with
  | false => exact .inl ⟨rfl, rfl⟩
  | true =>
    right
    rw [Bool.not_true, if_neg Bool.false_ne_true,
      pwmApplyState_enabled hops hle (hpos hen) (by rw [hen]; exact nofun)]
    rfl

end Calls

/-! ## The core's copy and the registers -/

/-- What the core remembers of a channel is what its registers hold, once it has been configured,
and a channel that runs is requested. -/
structure DeviceSync (rts : RtsxPwmChip) (i : Nat) : Prop where
  duty_le : (rts.chip.pwms i).state.dutyCycle ≤ (rts.chip.pwms i).state.period
  en : (rts.channel i).en = if (rts.chip.pwms i).state.enabled then 1 else 0
  high : 0 < (rts.chip.pwms i).state.period →
    (rts.channel i).high = highCount rts.busclk (rts.chip.pwms i).state.dutyCycle
  low : 0 < (rts.chip.pwms i).state.period →
    (rts.channel i).low = lowCount rts.busclk (rts.chip.pwms i).state.dutyCycle
      (rts.chip.pwms i).state.period
  period : (rts.chip.pwms i).state.enabled = true → 0 < (rts.chip.pwms i).state.period
  requested : (rts.chip.pwms i).state.enabled = true → (rts.channel i).requested = true

/-- The invariant. -/
structure RtsSync (rts : RtsxPwmChip) : Prop where
  ops : rts.chip.ops = rtsxPwmOps rts.busclk
  owner : ∀ i < numPwm, (rts.desc i).pwm = none ∨ (rts.desc i).pwm = some (.rts, i)
  device : ∀ i < numPwm, DeviceSync rts i

/-- Nothing but one channel has changed. -/
structure SameElsewhere (i : Nat) (rts rts' : RtsxPwmChip) : Prop where
  busclk : rts'.busclk = rts.busclk
  ops : rts'.chip.ops = rts.chip.ops
  pwms : ∀ j, j ≠ i → rts'.chip.pwms j = rts.chip.pwms j
  desc : ∀ j, j ≠ i → rts'.desc j = rts.desc j
  registers : ∀ a, ¬ (i * 0x40 ≤ a ∧ a < i * 0x40 + 0x40) → rts'.chip.hw a = rts.chip.hw a

section Sync

variable {rts rts' rts'' : RtsxPwmChip} {i j : Nat}

theorem SameElsewhere.trans (h : SameElsewhere i rts rts') (h' : SameElsewhere i rts' rts'') :
    SameElsewhere i rts rts'' :=
  ⟨h'.busclk.trans h.busclk, h'.ops.trans h.ops, fun j hj => (h'.pwms j hj).trans (h.pwms j hj),
    fun j hj => (h'.desc j hj).trans (h.desc j hj),
    fun a ha => (h'.registers a ha).trans (h.registers a ha)⟩

theorem SameElsewhere.refl (i : Nat) (rts : RtsxPwmChip) : SameElsewhere i rts rts :=
  ⟨rfl, rfl, fun _ _ => rfl, fun _ _ => rfl, fun _ _ => rfl⟩

theorem SameElsewhere.reg (h : SameElsewhere i rts rts') (hj : j ≠ i) {offset : Nat}
    (ho : offset < 0x40) : rts'.chip.hw (pwmReg j offset) = rts.chip.hw (pwmReg j offset) := by
  refine h.registers _ ?_
  unfold pwmReg
  omega

theorem SameElsewhere.channel (h : SameElsewhere i rts rts') (hj : j ≠ i) :
    rts'.channel j = rts.channel j := by
  unfold RtsxPwmChip.channel
  rw [h.desc j hj, h.reg hj (by decide), h.reg hj (by decide), h.reg hj (by decide)]

theorem RtsSync.of_same (h : RtsSync rts) (hsame : SameElsewhere i rts rts')
    (howner : (rts'.desc i).pwm = none ∨ (rts'.desc i).pwm = some (.rts, i))
    (hdevice : DeviceSync rts' i) : RtsSync rts' := by
  refine ⟨by rw [hsame.ops, hsame.busclk, h.ops], fun j hlt => ?_, fun j hlt => ?_⟩
  · by_cases hj : j = i
    · rw [hj]
      exact howner
    · rw [hsame.desc j hj]
      exact h.owner j hlt
  · by_cases hj : j = i
    · rw [hj]
      exact hdevice
    · have hdev := h.device j hlt
      constructor
      all_goals rw [hsame.pwms j hj]
      · exact hdev.duty_le
      · rw [hsame.channel hj]
        exact hdev.en
      · rw [hsame.channel hj, hsame.busclk]
        exact hdev.high
      · rw [hsame.channel hj, hsame.busclk]
        exact hdev.low
      · exact hdev.period
      · rw [hsame.channel hj]
        exact hdev.requested

theorem sameElsewhere_setDesc (rts : RtsxPwmChip) (i : Nat) (desc : PwmDesc) :
    SameElsewhere i rts { rts with desc := update rts.desc i desc } :=
  ⟨rfl, rfl, fun _ _ => rfl, fun _ hj => update_of_ne hj _ _, fun _ _ => rfl⟩

theorem sameElsewhere_setRequested (rts : RtsxPwmChip) (i : Nat) (requested : Bool) :
    SameElsewhere i rts { rts with chip := rts.chip.setRequested i requested } :=
  ⟨rfl, rfl, fun _ hj => update_of_ne hj _ _, fun _ _ => rfl, fun _ _ => rfl⟩

/-- A change of the device's state and of the channel's registers. -/
def RtsxPwmChip.program (rts : RtsxPwmChip) (i : Nat) (state : PwmState) (hw : Mmio) :
    RtsxPwmChip :=
  { rts with chip := rts.chip.program i state hw }

theorem sameElsewhere_program (rts : RtsxPwmChip) (i : Nat) (state : PwmState) {hw : Mmio}
    (hhw : ∀ a, ¬ (i * 0x40 ≤ a ∧ a < i * 0x40 + 0x40) → hw a = rts.chip.hw a) :
    SameElsewhere i rts (rts.program i state hw) :=
  ⟨rfl, rfl, fun _ hj => program_pwms_of_ne rts.chip state hw hj, fun _ _ => rfl, hhw⟩

theorem pwmWritel_off (mmio : Mmio) (val : Nat) {offset a : Nat} (ho : offset < 0x40)
    (ha : ¬ (i * 0x40 ≤ a ∧ a < i * 0x40 + 0x40)) : pwmWritel mmio i offset val a = mmio a := by
  rw [pwmWritel_apply, if_neg]
  unfold pwmReg
  omega

/-- A new period or duty keeps driver and registers in step. -/
theorem pwmConfig_sync (h : RtsSync rts) (hi : i < numPwm) {duty period : Nat}
    (hle : duty ≤ period) (hpos : 0 < period) :
    let rts' := { rts with chip := (pwmConfig duty period rts.chip i).2 }
    SameElsewhere i rts rts' ∧ RtsSync rts' ∧ (rts'.chip.pwms i).state.period = period ∧
      rts'.channel i = { rts.channel i with
        high := highCount rts.busclk duty
        low := lowCount rts.busclk duty period } := by
  have hdev := h.device i hi
  dsimp only
  rcases pwmConfig_rts (i := i) h.ops hle hpos with ⟨hsame, hduty, hperiod⟩ | hprog
  · rw [hsame]
    refine ⟨SameElsewhere.refl i rts, h, hperiod, ?_⟩
    have hhigh := hdev.high (by omega)
    have hlow := hdev.low (by omega)
    rw [hduty] at hhigh
    rw [hduty, hperiod] at hlow
    rw [← hhigh, ← hlow]
  · rw [hprog]
    generalize hstate : { (rts.chip.pwms i).state with dutyCycle := duty, period := period } = state
    generalize hhw : (rtsxPwmConfig rts.busclk rts.chip.hw i duty period).2 = hw
    have hsame : SameElsewhere i rts (rts.program i state hw) := by
      refine sameElsewhere_program rts i _ fun a ha => ?_
      rw [← hhw]
      show pwmWritel (pwmWritel rts.chip.hw i xb2PwmHigh _) i xb2PwmLow _ a = _
      rw [pwmWritel_off _ _ (by decide) ha, pwmWritel_off _ _ (by decide) ha]
    have hchannel : (rts.program i state hw).channel i = { rts.channel i with
        high := highCount rts.busclk duty
        low := lowCount rts.busclk duty period } := by
      rw [← hhw]
      unfold RtsxPwmChip.channel RtsxPwmChip.program PwmChip.program rtsxPwmConfig
      simp [pwmWritel_apply, pwmReg, xb2PwmEn, xb2PwmHigh, xb2PwmLow]
    have hprogram : ((rts.program i state hw).chip.pwms i).state = state :=
      program_state rts.chip i state hw
    refine ⟨hsame, h.of_same hsame (h.owner i hi) ?_, ?_, hchannel⟩
    · show DeviceSync (rts.program i state hw) i
      constructor
      all_goals rw [hprogram]
      · rw [← hstate]
        exact hle
      · rw [hchannel, ← hstate]
        exact hdev.en
      · rw [hchannel, ← hstate]
        exact fun _ => rfl
      · rw [hchannel, ← hstate]
        exact fun _ => rfl
      · rw [← hstate]
        exact fun _ => hpos
      · rw [hchannel, ← hstate]
        exact hdev.requested
    · show ((rts.program i state hw).chip.pwms i).state.period = period
      rw [hprogram, ← hstate]

theorem program_enabled_sync (h : RtsSync rts) (hi : i < numPwm) {enabled : Bool}
    (hpos : enabled = true → 0 < (rts.chip.pwms i).state.period)
    (hreq : enabled = true → (rts.channel i).requested = true) :
    let rts' := rts.program i { (rts.chip.pwms i).state with enabled := enabled }
      (pwmWritel rts.chip.hw i xb2PwmEn (if enabled then 1 else 0))
    SameElsewhere i rts rts' ∧ RtsSync rts' ∧
      rts'.channel i = { rts.channel i with en := if enabled then 1 else 0 } := by
  have hdev := h.device i hi
  dsimp only
  generalize hstate : { (rts.chip.pwms i).state with enabled := enabled } = state
  generalize hhw : pwmWritel rts.chip.hw i xb2PwmEn (if enabled then 1 else 0) = hw
  have hsame : SameElsewhere i rts (rts.program i state hw) := by
    refine sameElsewhere_program rts i _ fun a ha => ?_
    rw [← hhw]
    exact pwmWritel_off _ _ (by decide) ha
  have hchannel : (rts.program i state hw).channel i =
      { rts.channel i with en := if enabled then 1 else 0 } := by
    rw [← hhw]
    unfold RtsxPwmChip.channel RtsxPwmChip.program PwmChip.program
    simp [pwmWritel_apply, pwmReg, xb2PwmEn, xb2PwmHigh, xb2PwmLow]
  have hprogram : ((rts.program i state hw).chip.pwms i).state = state :=
    program_state rts.chip i state hw
  refine ⟨hsame, h.of_same hsame (h.owner i hi) ?_, hchannel⟩
  constructor
  all_goals rw [hprogram]
  · rw [← hstate]
    exact hdev.duty_le
  · rw [hchannel, ← hstate]
  · rw [hchannel, ← hstate]
    exact hdev.high
  · rw [hchannel, ← hstate]
    exact hdev.low
  · rw [← hstate]
    exact hpos
  · rw [hchannel, ← hstate]
    exact hreq

theorem pwmEnable_sync (h : RtsSync rts) (hi : i < numPwm)
    (hpos : 0 < (rts.chip.pwms i).state.period) (hreq : (rts.channel i).requested = true) :
    let rts' := { rts with chip := (pwmEnable rts.chip i).2 }
    SameElsewhere i rts rts' ∧ RtsSync rts' ∧ rts'.channel i = { rts.channel i with en := 1 } := by
  have hdev := h.device i hi
  dsimp only
  rcases pwmEnable_rts h.ops hdev.duty_le hpos with ⟨hsame, hen⟩ | hprog
  · rw [hsame]
    refine ⟨SameElsewhere.refl i rts, h, ?_⟩
    have hone := hdev.en
    rw [hen, if_pos rfl] at hone
    rw [← hone]
  · rw [hprog]
    exact program_enabled_sync h hi (fun _ => hpos) fun _ => hreq

theorem pwmDisable_sync (h : RtsSync rts) (hi : i < numPwm) :
    let rts' := { rts with chip := pwmDisable rts.chip i }
    SameElsewhere i rts rts' ∧ RtsSync rts' ∧ rts'.channel i = { rts.channel i with en := 0 } := by
  have hdev := h.device i hi
  dsimp only
  rcases pwmDisable_rts h.ops hdev.duty_le hdev.period with ⟨hsame, hen⟩ | hprog
  · rw [hsame]
    refine ⟨SameElsewhere.refl i rts, h, ?_⟩
    have hzero := hdev.en
    rw [hen, if_neg Bool.false_ne_true] at hzero
    rw [← hzero]
  · rw [hprog]
    have hoff : (false = true) → False := Bool.false_ne_true
    exact program_enabled_sync h hi (fun habs => (hoff habs).elim) fun habs => (hoff habs).elim

theorem pwmConfig_sync_int (h : RtsSync rts) (hi : i < numPwm) {duty period : Int}
    (hduty : 0 ≤ duty) (hle : duty ≤ period) (hpos : 0 < period) :
    let rts' := { rts with chip := (pwmConfig duty period rts.chip i).2 }
    SameElsewhere i rts rts' ∧ RtsSync rts' ∧ 0 < (rts'.chip.pwms i).state.period ∧
      rts'.channel i = { rts.channel i with
        high := highCount rts.busclk duty
        low := lowCount rts.busclk duty period } := by
  obtain ⟨d, rfl⟩ := Int.eq_ofNat_of_zero_le hduty
  obtain ⟨p, rfl⟩ := Int.eq_ofNat_of_zero_le (by omega : 0 ≤ period)
  obtain ⟨hsame, hsync, hperiod, hchannel⟩ := pwmConfig_sync h hi (by omega : d ≤ p) (by omega)
  refine ⟨hsame, hsync, ?_, hchannel⟩
  rw [hperiod]
  omega

theorem DeviceSync.congr (h : DeviceSync rts i)
    (hstate : (rts'.chip.pwms i).state = (rts.chip.pwms i).state)
    (hhw : rts'.chip.hw = rts.chip.hw) (hbusclk : rts'.busclk = rts.busclk)
    (hreq : (rts.chip.pwms i).state.enabled = true → (rts'.channel i).requested = true) :
    DeviceSync rts' i := by
  have hen : (rts'.channel i).en = (rts.channel i).en := congrFun hhw _
  have hhigh : (rts'.channel i).high = (rts.channel i).high := congrFun hhw _
  have hlow : (rts'.channel i).low = (rts.channel i).low := congrFun hhw _
  constructor
  all_goals rw [hstate]
  · exact h.duty_le
  · rw [hen]
    exact h.en
  · rw [hhigh, hbusclk]
    exact h.high
  · rw [hlow, hbusclk]
    exact h.low
  · exact h.period
  · exact hreq

end Sync

/-! ## Writes -/

section Writes

variable {s : PwmSystem η} {rts rts' : RtsxPwmChip} {i : Nat}

/-- The system with another state of the chip. -/
def PwmSystem.withRts (s : PwmSystem η) (rts : RtsxPwmChip) : PwmSystem η :=
  { s with rts := some rts }

theorem withRts_self (hs : s.rts = some rts) : s.withRts rts = s := by
  unfold PwmSystem.withRts
  rw [← hs]

theorem onDevice_rts (hs : s.rts = some rts)
    (call : {η : Type} → PwmChip η → Nat → Int × PwmChip η) :
    s.onDevice (.rts, i) call =
      ((call rts.chip i).1, s.withRts { rts with chip := (call rts.chip i).2 }) := by
  unfold PwmSystem.onDevice
  dsimp only
  rw [hs]
  rfl

/-- A write that does what it should and keeps the invariant. -/
def Writes (s : PwmSystem η) (rts : RtsxPwmChip) (i : Nat) (attr : PwmAttr) (val : Except Int Int)
    (r : Option Int × PwmSystem η) : Prop :=
  ∃ rts', WriteOk s rts i attr val r rts' ∧ RtsSync rts'

theorem writes_error (hs : s.rts = some rts) (hsync : RtsSync rts) (attr : PwmAttr)
    (val : Except Int Int) (err : Int) : Writes s rts i attr val (some err, s) :=
  ⟨rts, ⟨hs, .error attr val _ err, fun _ _ => rfl, fun _ _ => rfl, rfl⟩, hsync⟩

theorem writes_of_same {attr : PwmAttr} {val : Except Int Int} (hsame : SameElsewhere i rts rts')
    (hsync : RtsSync rts')
    (hstep : Channel.Step rts.busclk attr val (rts.channel i) none (rts'.channel i)) :
    Writes s rts i attr val (none, s.withRts rts') :=
  ⟨rts', ⟨rfl, hstep, fun _ hj => hsame.channel hj, hsame.registers, rfl⟩, hsync⟩

theorem onDevice_request_busy {dev : ChipRef × Nat} (hfree : s.isFree dev ≠ true) :
    ∃ err < 0, s.onDevice dev pwmDeviceRequest = (err, s) := by
  obtain ⟨ref, k⟩ := dev
  cases ref with
  | rts =>
    cases hs : s.rts with
    | none =>
      refine ⟨-ENODEV, by decide, ?_⟩
      unfold PwmSystem.onDevice
      dsimp only
      rw [hs]
    | some rts =>
      have hreq : (rts.chip.pwms k).requested = true := by simpa [PwmSystem.isFree, hs] using hfree
      have hcall : pwmDeviceRequest rts.chip k = (-EBUSY, rts.chip) := if_pos hreq
      refine ⟨-EBUSY, by decide, ?_⟩
      rw [onDevice_rts hs, hcall, withRts_self hs]
  | other id =>
    cases hs : s.others id with
    | none =>
      refine ⟨-ENODEV, by decide, ?_⟩
      unfold PwmSystem.onDevice
      dsimp only
      rw [hs]
    | some chip =>
      have hreq : (chip.pwms k).requested = true := by simpa [PwmSystem.isFree, hs] using hfree
      have hcall : pwmDeviceRequest chip k = (-EBUSY, chip) := if_pos hreq
      refine ⟨-EBUSY, by decide, ?_⟩
      unfold PwmSystem.onDevice
      dsimp only
      rw [hs]
      dsimp only
      rw [hcall, ← hs, update_eq_self]

theorem pwmDeviceRequest_rts {chip : PwmChip Mmio} {busclk : Busclk}
    (hops : chip.ops = rtsxPwmOps busclk) (hfree : (chip.pwms i).requested = false) :
    pwmDeviceRequest chip i = (0, chip.setRequested i true) := by
  have hlive : chip.ops.ownerLive = true := by
    rw [hops]
    rfl
  have hrequest : chip.ops.request = none := by
    rw [hops]
    rfl
  unfold pwmDeviceRequest
  rw [if_neg (by rw [hfree]; exact nofun), hlive, hrequest]
  rfl

theorem setRequested_state (chip : PwmChip Mmio) (i : Nat) (requested : Bool) :
    ((chip.setRequested i requested).pwms i).state = (chip.pwms i).state := by
  show (update chip.pwms i _ i).state = _
  rw [update_self]

theorem pwmPut_rts (hops : rts.chip.ops = rtsxPwmOps rts.busclk) :
    SameElsewhere i rts { rts with chip := pwmPut rts.chip i } ∧
      ((pwmPut rts.chip i).pwms i).state = (rts.chip.pwms i).state ∧
      (pwmPut rts.chip i).hw = rts.chip.hw := by
  have hfree : (rts.chip.setRequested i false).ops.free = none := by
    show rts.chip.ops.free = none
    rw [hops]
    rfl
  unfold pwmPut
  cases hreq : (rts.chip.pwms i).requested with
  | false => exact ⟨SameElsewhere.refl i rts, rfl, rfl⟩
  | true =>
    rw [Bool.not_true, if_neg Bool.false_ne_true]
    dsimp only
    rw [hfree]
    exact ⟨sameElsewhere_setRequested rts i false, setRequested_state rts.chip i false, rfl⟩

theorem mark_sync (hsync : RtsSync rts) (hi : i < numPwm) (chip : PwmChip Mmio) (desc : PwmDesc)
    (hchip : SameElsewhere i rts { rts with chip := chip })
    (hstate : (chip.pwms i).state = (rts.chip.pwms i).state) (hhw : chip.hw = rts.chip.hw)
    (hpwm : desc.pwm = none ∨ desc.pwm = some (.rts, i))
    (hreq : (rts.chip.pwms i).state.enabled = true → desc.pwm.isSome = true) :
    SameElsewhere i rts { rts with chip := chip, desc := update rts.desc i desc } ∧
      RtsSync { rts with chip := chip, desc := update rts.desc i desc } ∧
      ({ rts with chip := chip, desc := update rts.desc i desc } : RtsxPwmChip).channel i =
        { rts.channel i with
          requested := desc.pwm.isSome
          dutyNs := desc.dutyNs
          periodNs := desc.periodNs } := by
  have hsame : SameElsewhere i rts
      { rts with chip := chip, desc := update rts.desc i desc } :=
    hchip.trans (sameElsewhere_setDesc { rts with chip := chip } i desc)
  have hdesc : update rts.desc i desc i = desc := update_self ..
  have hchannel : ({ rts with chip := chip, desc := update rts.desc i desc } :
      RtsxPwmChip).channel i =
        { rts.channel i with
          requested := desc.pwm.isSome
          dutyNs := desc.dutyNs
          periodNs := desc.periodNs } := by
    unfold RtsxPwmChip.channel
    dsimp only
    rw [hdesc, hhw]
  refine ⟨hsame, hsync.of_same hsame ?_ ?_, hchannel⟩
  · show (update rts.desc i desc i).pwm = none ∨
      (update rts.desc i desc i).pwm = some (.rts, i)
    rw [hdesc]
    exact hpwm
  · refine (hsync.device i hi).congr hstate hhw rfl fun hen => ?_
    rw [hchannel]
    exact hreq hen

theorem requestStore_writes (hs : s.rts = some rts) (hsync : RtsSync rts) (hi : i < numPwm)
    {val : Int} (hcond : WriteCond s rts i .request val) :
    Writes s rts i .request (.ok val) (requestStore s rts i val) := by
  have hown := hsync.owner i hi
  unfold requestStore
  dsimp only
  unfold WriteCond at hcond
  dsimp only at hcond
  by_cases hval : val ≠ 0
  · rw [if_pos hval] at hcond ⊢
    by_cases hpwm : (rts.desc i).pwm = none
    · rw [if_pos hpwm]
      unfold PwmSystem.pwmRequest
      rw [if_neg (by unfold numPwm at hi; unfold maxPwms; omega)]
      cases htree : s.numbers.tree i with
      | none => exact writes_error hs hsync _ _ _
      | some dev =>
        dsimp only
        by_cases hfree : s.isFree dev = true
        · have hdev := hcond hpwm dev htree hfree
          subst hdev
          have hreq : (rts.chip.pwms i).requested = false := by
            simpa [PwmSystem.isFree, hs] using hfree
          rw [onDevice_rts hs, pwmDeviceRequest_rts hsync.ops hreq]
          obtain ⟨hsame, hsync', hchannel⟩ := mark_sync hsync hi _
            { rts.desc i with pwm := some (.rts, i) } (sameElsewhere_setRequested rts i true)
            (setRequested_state rts.chip i true) rfl (.inr rfl) fun _ => rfl
          refine writes_of_same hsame hsync' ?_
          rw [hchannel]
          refine .request _ val hval ?_
          show (rts.desc i).pwm.isSome = false
          rw [hpwm]
          rfl
        · obtain ⟨err, herr, hcall⟩ := onDevice_request_busy hfree
          rw [hcall]
          dsimp only
          rw [if_pos herr]
          exact writes_error hs hsync _ _ _
    · rw [if_neg hpwm]
      exact writes_error hs hsync _ _ _
  · rw [if_neg hval] at hcond ⊢
    obtain rfl : val = 0 := not_not.mp hval
    -- A channel whose register is clear is off for the core, too.
    have hoff : (rts.chip.pwms i).state.enabled ≠ true := by
      intro hen
      have hone := (hsync.device i hi).en
      rw [hen, if_pos rfl] at hone
      exact absurd (hone.symm.trans hcond) (by decide)
    rcases hown with hpwm | hpwm
    · obtain ⟨hsame, hsync', hchannel⟩ := mark_sync hsync hi rts.chip
        { rts.desc i with pwm := none } (SameElsewhere.refl i rts) rfl rfl (.inl rfl)
        fun hen => (hoff hen).elim
      rw [hpwm]
      dsimp only
      have hset : s.setDesc i { rts.desc i with pwm := none } = s.withRts { rts with
          desc := update rts.desc i { rts.desc i with pwm := none } } := by
        unfold PwmSystem.setDesc
        rw [hs]
        rfl
      rw [hset]
      refine writes_of_same hsame hsync' ?_
      rw [hchannel]
      exact .release _ hcond
    · rw [hpwm]
      dsimp only
      rw [onDevice_rts hs]
      obtain ⟨hchip, hstate, hhw⟩ := pwmPut_rts (i := i) hsync.ops
      obtain ⟨hsame, hsync', hchannel⟩ := mark_sync hsync hi _ { rts.desc i with pwm := none }
        hchip hstate hhw (.inl rfl) fun hen => (hoff hen).elim
      refine writes_of_same hsame hsync' ?_
      rw [hchannel]
      exact .release _ hcond

theorem numberStore_writes (hs : s.rts = some rts) (hsync : RtsSync rts) (hi : i < numPwm)
    {attr : PwmAttr} {val : Int} (set : PwmDesc → PwmDesc)
    (hpwm : (set (rts.desc i)).pwm = (rts.desc i).pwm)
    (hstep : (rts.desc i).pwm ≠ none → Channel.Step rts.busclk attr (.ok val) (rts.channel i) none
      { rts.channel i with
        dutyNs := (set (rts.desc i)).dutyNs
        periodNs := (set (rts.desc i)).periodNs }) :
    Writes s rts i attr (.ok val) (numberStore s rts i val set) := by
  unfold numberStore
  split
  · exact writes_error hs hsync _ _ _
  · split
    · exact writes_error hs hsync _ _ _
    · rename_i hnone
      have hdev := hsync.device i hi
      obtain ⟨hsame, hsync', hchannel⟩ := mark_sync hsync hi rts.chip (set (rts.desc i))
        (SameElsewhere.refl i rts) rfl rfl (by rw [hpwm]; exact hsync.owner i hi)
        fun hen => by rw [hpwm]; exact hdev.requested hen
      have hset : s.setDesc i (set (rts.desc i)) =
          s.withRts { rts with desc := update rts.desc i (set (rts.desc i)) } := by
        unfold PwmSystem.setDesc
        rw [hs]
        rfl
      rw [hset]
      refine writes_of_same hsame hsync' ?_
      rw [hchannel, hpwm]
      exact hstep hnone

theorem requested_of_pwm {pwm : ChipRef × Nat} (hpwm : (rts.desc i).pwm = some pwm) :
    (rts.channel i).requested = true := by
  show (rts.desc i).pwm.isSome = true
  rw [hpwm]
  rfl

theorem enableStore_writes (hs : s.rts = some rts) (hsync : RtsSync rts) (hi : i < numPwm)
    {val : Int} (hcond : WriteCond s rts i .enable val) :
    Writes s rts i .enable (.ok val) (enableStore s rts i val) := by
  unfold enableStore
  dsimp only
  rcases hsync.owner i hi with hpwm | hpwm
  · rw [hpwm]
    exact writes_error hs hsync _ _ _
  · have hreq := requested_of_pwm hpwm
    rw [hpwm]
    dsimp only
    by_cases hval : val ≠ 0
    · obtain ⟨hduty, hle, hpos⟩ := hcond hval (by rw [hpwm]; exact Option.some_ne_none _)
      rw [if_pos hval, onDevice_rts hs]
      obtain ⟨hsame, hsync', hperiod, hchannel⟩ := pwmConfig_sync_int hsync hi hduty hle hpos
      dsimp only
      rw [onDevice_rts rfl]
      obtain ⟨hsame', hsync'', hchannel'⟩ := pwmEnable_sync hsync' hi hperiod
        (by rw [hchannel]; exact hreq)
      refine writes_of_same (hsame.trans hsame') hsync'' ?_
      rw [hchannel', hchannel]
      exact .enable _ val hval hreq
    · obtain rfl : val = 0 := not_not.mp hval
      rw [if_neg hval, onDevice_rts hs]
      obtain ⟨hsame, hsync', hchannel⟩ := pwmDisable_sync hsync hi
      refine writes_of_same hsame hsync' ?_
      rw [hchannel]
      exact .disable _ hreq

theorem attrStore_writes (hs : s.rts = some rts) (hsync : RtsSync rts) (hi : i < numPwm)
    {attr : PwmAttr} {val : Except Int Int} (hcond : StepCond s (.write i attr val)) :
    Writes s rts i attr val (attrStore s rts i attr val) := by
  cases val with
  | error err => exact writes_error hs hsync _ _ _
  | ok val =>
    have hwrite := hcond rts hs hi
    have hreq : (rts.desc i).pwm ≠ none → (rts.channel i).requested = true := by
      intro hne
      obtain ⟨pwm, hpwm⟩ := Option.ne_none_iff_exists'.mp hne
      exact requested_of_pwm hpwm
    cases attr with
    | request => exact requestStore_writes hs hsync hi hwrite
    | dutyNs =>
      exact numberStore_writes hs hsync hi (fun desc => { desc with dutyNs := val }) rfl
        fun hne => .dutyNs _ val (hreq hne)
    | periodNs =>
      exact numberStore_writes hs hsync hi (fun desc => { desc with periodNs := val }) rfl
        fun hne => .periodNs _ val (hreq hne)
    | enable => exact enableStore_writes hs hsync hi hwrite

end Writes

/-! ## Runs -/

theorem pwmchipAdd_spec {numbers numbers' : PwmNumbers} {ref : ChipRef} {ops : PwmOps η}
    {base : Int} {npwm : Nat} {states : Nat → PwmState} {hw : η} {memory : Bool} {chip : PwmChip η}
    (h : pwmchipAdd numbers ref ops base npwm states hw memory = some (numbers', chip)) :
    chip.ops = ops ∧ (∀ i, (chip.pwms i).state = states i) ∧ chip.hw = hw := by
  unfold pwmchipAdd at h
  split at h
  · cases h
  · split at h
    · cases h
    · cases h
      exact ⟨rfl, fun _ => rfl, rfl⟩

theorem probe_en : ∀ i < numPwm, ((List.range numPwm).foldl
    (fun mmio i => pwmWritel mmio i xb2PwmKeep 1) fun _ => 0) (pwmReg i xb2PwmEn) = 0 := by
  decide

/-- The chip, once it is there, is in step with the core. -/
def PwmSystem.Sync (s : PwmSystem η) : Prop := ∀ rts, s.rts = some rts → RtsSync rts

theorem rtsxPwmProbe_sync {s : PwmSystem η} {busclk : Busclk} {memory : Bool}
    (hnone : s.rts = none) : (rtsxPwmProbe s busclk memory).Sync := by
  intro rts hrts
  unfold rtsxPwmProbe at hrts
  dsimp only at hrts
  split at hrts
  · rw [hnone] at hrts
    cases hrts
  · rename_i numbers chip hadd
    cases hrts
    obtain ⟨hops, hstates, hhw⟩ := pwmchipAdd_spec hadd
    refine ⟨hops, fun _ _ => .inl rfl, fun i hi => ?_⟩
    have hstate : (chip.pwms i).state = ⟨0, 0, .normal, false⟩ := hstates i
    have hen : chip.hw (pwmReg i xb2PwmEn) = 0 := by
      rw [hhw]
      exact probe_en i hi
    constructor
    all_goals
      dsimp only
      rw [hstate]
    · exact hen
    all_goals
      intro habs
      cases habs

/-- **Every step** keeps driver and registers in step. -/
theorem pwmStep_sync (s : PwmSystem η) (e : PwmEvent η) (t : PwmSystem η) (hsync : s.Sync)
    (hcond : StepCond s e) (hstep : pwmStep s e = some t) : t.Sync := by
  cases e with
  | add id ops base npwm states hw memory =>
    unfold pwmStep at hstep
    dsimp only at hstep
    split at hstep
    · cases hstep
    · split at hstep
      all_goals
        cases hstep
        exact hsync
  | remove id =>
    unfold pwmStep at hstep
    dsimp only at hstep
    split at hstep
    · cases hstep
    · split at hstep
      all_goals
        cases hstep
        exact hsync
  | probe busclk memory =>
    unfold pwmStep at hstep
    dsimp only at hstep
    split at hstep
    · cases hstep
    · rename_i hnone
      obtain rfl := Option.some.inj hstep
      exact rtsxPwmProbe_sync (by simpa using hnone)
  | write i attr val =>
    unfold pwmStep at hstep
    dsimp only at hstep
    split at hstep
    · cases hstep
    · rename_i rts hs
      split at hstep
      · rename_i hi
        obtain rfl := Option.some.inj hstep
        obtain ⟨rts', hok, hsync'⟩ := attrStore_writes hs (hsync rts hs) hi hcond
        intro rts'' hs''
        rw [hok.chip] at hs''
        cases hs''
        exact hsync'
      · cases hstep

theorem stepOk_of_sync (s : PwmSystem η) (e : PwmEvent η) (hsync : s.Sync) (hcond : StepCond s e) :
    StepOk s e := by
  cases e with
  | write i attr val =>
    intro rts hs hi
    obtain ⟨rts', hok, -⟩ := attrStore_writes hs (hsync rts hs) hi hcond
    exact ⟨rts', hok⟩
  | add => trivial
  | remove => trivial
  | probe => trivial

theorem PwmSystem.Sync.driven {s : PwmSystem η} (hsync : s.Sync) : Driven s := by
  intro rts hs i hi hen
  have hdev := (hsync rts hs).device i hi
  refine hdev.requested ?_
  rw [hdev.en] at hen
  by_contra hoff
  exact hen (if_neg hoff)

/-- **Four independent channels.**  Whatever chips come and go: in a run whose requests find the
channel they are for, whose channels are enabled with a duty and a period that the core takes, and
disabled before they are released, every write is a step of its channel and touches nothing else,
and only requested channels are driven. -/
theorem channels_independent (es : List (PwmEvent η))
    (hcond : Along pwmStep StepCond PwmSystem.start es) :
    Along pwmStep StepOk PwmSystem.start es ∧
      ∀ s, exec pwmStep PwmSystem.start es = some s → Driven s := by
  have hstart : (PwmSystem.start : PwmSystem η).Sync := by
    intro rts hs
    cases hs
  refine ⟨Along.of_invariant pwmStep_sync stepOk_of_sync hstart hcond, fun s hrun => ?_⟩
  exact (exec_invariant pwmStep_sync hstart hcond hrun).driven

/-- A clock with a period of 100 ns. -/
def tenMhz : Busclk := ⟨10000000, by decide, by decide⟩

/-- A channel that is given a duty and a period. -/
def setUp (duty period : Int) : List (PwmEvent Mmio) :=
  [.probe tenMhz true, .write 0 .request (.ok 1), .write 0 .dutyNs (.ok duty),
    .write 0 .periodNs (.ok period)]

/-- A session with one channel: requested, driven at half the time, stopped and released. -/
theorem channels_independent_session :
    let es := setUp 500 1000 ++
      [.write 0 .enable (.ok 1), .write 0 .enable (.ok 0), .write 0 .request (.ok 0)]
    Along pwmStep StepOk PwmSystem.start es ∧
      ∃ s, exec pwmStep PwmSystem.start es = some s ∧ Driven s := by
  intro es
  obtain ⟨hall, hdriven⟩ := channels_independent es (by decide +kernel)
  obtain ⟨s, hrun⟩ : ∃ s, exec pwmStep PwmSystem.start es = some s :=
    Option.isSome_iff_exists.mp (by decide +kernel)
  exact ⟨hall, s, hrun, hdriven s hrun⟩

/-- Another chip of four channels is there first. -/
def otherFirst : List (PwmEvent Mmio) :=
  [.add 0 (rtsxPwmOps tenMhz) (-1) 4 (fun _ => ⟨0, 0, .normal, false⟩) (fun _ => 0) true,
    .probe tenMhz true]

theorem not_along_of_seen {β : Type} {es : List (PwmEvent η)} {i : Nat} {attr : PwmAttr}
    {val : Except Int Int} (see : PwmSystem η → RtsxPwmChip → β) {b : β}
    (hseen : ((exec pwmStep PwmSystem.start es).bind fun s => s.rts.map (see s)) = some b)
    (hi : i < numPwm)
    (hbad : ∀ s rts rts', see s rts = b →
      ¬ WriteOk s rts i attr val (attrStore s rts i attr val) rts') :
    ¬ Along pwmStep StepOk PwmSystem.start (es ++ [.write i attr val]) := by
  intro hok
  obtain ⟨s, hrun, hseen⟩ := Option.bind_eq_some_iff.mp hseen
  obtain ⟨rts, hs, hsee⟩ := Option.map_eq_some_iff.mp hseen
  obtain ⟨rts', hwrite⟩ := (hok.append.2 s hrun).1 rts hs hi
  exact hbad s rts rts' hsee hwrite

/-- The register of channel 0 of the chip that is there first. -/
def firstEn (s : PwmSystem Mmio) : Option Nat :=
  (s.others 0).map fun chip => chip.hw (pwmReg 0 xb2PwmEn)

/-- The three gaps.  A channel is enabled and it is the other chip that runs; a duty longer than the
period is taken for success with the channel off; a channel is released and runs on. -/
theorem not_channels_independent :
    ¬ Along pwmStep StepOk PwmSystem.start
        (otherFirst ++ (setUp 500 1000).tail ++ [.write 0 .enable (.ok 1)]) ∧
      ¬ Along pwmStep StepOk PwmSystem.start
        (setUp 1500 1000 ++ [.write 0 .enable (.ok 1)]) ∧
      ¬ Along pwmStep StepOk PwmSystem.start
        (setUp 500 1000 ++ [.write 0 .enable (.ok 1)] ++ [.write 0 .request (.ok 0)]) := by
  refine ⟨?_, ?_, ?_⟩
  · refine not_along_of_seen
      (fun s rts => (firstEn s, firstEn (attrStore s rts 0 .enable (.ok 1)).2))
      (b := (some 0, some 1)) (by decide +kernel) (by decide) fun s rts rts' hsee hok => ?_
    obtain ⟨hbefore, hafter⟩ := Prod.mk.inj hsee
    have hsame : firstEn (attrStore s rts 0 .enable (.ok 1)).2 = firstEn s := by
      unfold firstEn
      rw [hok.others]
    rw [hbefore, hafter] at hsame
    cases hsame
  · refine not_along_of_seen (fun s rts => ((attrStore s rts 0 .enable (.ok 1)).1,
        (attrStore s rts 0 .enable (.ok 1)).2.rts.map fun rts' => (rts'.channel 0).en))
      (b := (none, some 0)) (by decide +kernel) (by decide) fun s rts rts' hsee hok => ?_
    obtain ⟨hret, hafter⟩ := Prod.mk.inj hsee
    rw [hok.chip] at hafter
    have hoff : (rts'.channel 0).en = 0 := Option.some.inj hafter
    have hstep := hok.step
    rw [hret] at hstep
    exact absurd (hoff.symm.trans (hstep.en_of_enable (by decide))) (by decide)
  · refine not_along_of_seen (fun s rts => ((rts.channel 0).en,
        (attrStore s rts 0 .request (.ok 0)).1))
      (b := (1, none)) (by decide +kernel) (by decide) fun s rts rts' hsee hok => ?_
    obtain ⟨hon, hret⟩ := Prod.mk.inj hsee
    have hstep := hok.step
    rw [hret] at hstep
    exact absurd (hstep.en_of_release.symm.trans hon) (by decide)

end RealtekIpcam.Pwm
