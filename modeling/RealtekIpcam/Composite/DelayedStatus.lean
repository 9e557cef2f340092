import RealtekIpcam.Lib.Runs
import RealtekIpcam.Composite.Model

/-!
# Delayed status

A function that cannot answer `set_alt` at once returns `USB_GADGET_DELAYED_STATUS` and calls
`usb_composite_setup_continue` later; the status stage is queued when the last function has done
so.  The core keeps one count for this.  It does not know which SETUP packet a continue belongs
to, so a continue that comes late, after the configuration was reset, is counted for the next
SETUP packet that was delayed, and two SETUP packets that are delayed together are counted as one.

`Transfer` is the account that the core does not keep.  Under `Orderly` the two cases do not
occur, and then every delayed SETUP packet has its status stage queued once, by its last function.
-/

namespace RealtekIpcam.Composite

open Udc (SetupPacket)
open Runs (Along exec)

/-! ## The account -/

/-- A SETUP packet: how many functions have asked for delay, how many of them have not yet
continued, whether the configuration was reset meanwhile, and how many responses were queued. -/
structure Transfer where
  asked : Nat := 0
  owed : Nat := 0
  reset : Bool := false
  queued : Nat := 0

namespace Transfer

variable (t : Transfer)

/-- A function asks for delay. -/
def ask : Transfer := { t with asked := t.asked + 1, owed := t.owed + 1 }

/-- The configuration is reset: nobody waits for the functions any more. -/
def abandon : Transfer := if t.owed = 0 then t else { t with reset := true }

/-- The continues that the status stage still waits for. -/
def live : Nat := if t.reset then 0 else t.owed

/-- The status stage is queued once if all functions have continued, and else not at all. -/
def Ok : Prop := t.asked ≠ 0 → t.queued = if t.owed = 0 ∧ t.reset = false then 1 else 0

end Transfer

/-- What a call of the core does to the account of the SETUP packets, newest first. -/
def record (ts : List Transfer) : Call → List Transfer
  | .resetConfig => ts.map Transfer.abandon
  | .setAlt _ _ _ ret => if ret = usbGadgetDelayedStatus then ts.modifyHead Transfer.ask else ts
  | .setup _ => ts

/-- The core, with the account. -/
structure Control where
  cdev : CompositeDev
  transfers : List Transfer

/-- What happens to the core: a SETUP packet, a continue for the `i`-th newest of them, the end of
the connection. -/
inductive ControlEvent where
  | setup (ctrl : SetupPacket) (ans : Answers)
  | setupContinue (i : Nat)
  | disconnect

/-- The steps.  A function that has not asked for delay does not continue. -/
def Control.step (s : Control) : ControlEvent → Option Control
  | .setup ctrl ans =>
    let o := s.cdev.compositeSetup ctrl ans
    some
      { cdev := o.cdev
        transfers := (o.calls.foldl record ({} :: s.transfers)).modifyHead fun t =>
          { t with queued := if o.response.isSome then 1 else 0 } }
  | .setupContinue i =>
    match s.transfers[i]? with
    | none => none
    | some t =>
      if t.owed = 0 then none
      else
        let (queued, cdev) := s.cdev.usbCompositeSetupContinue
        some
          { cdev := cdev
            transfers := s.transfers.set i
              { t with owed := t.owed - 1, queued := t.queued + if queued then 1 else 0 } }
  | .disconnect =>
    some
      { cdev := s.cdev.compositeDisconnect
        transfers := s.cdev.leaveConfig.2.foldl record s.transfers }

/-- A device that is not configured yet. -/
def unconfigured (cdev : CompositeDev) : Control where
  cdev := { cdev with config := none, delayedStatus := 0 }
  transfers := []

/-- What should hold of delayed SETUP packets. -/
def StatusOk (s : Control) : Prop := ∀ t ∈ s.transfers, t.Ok

/-- The SETUP packet is a SET_INTERFACE, and the function asks for delay. -/
def SetInterfaceDelays (cdev : CompositeDev) (ctrl : SetupPacket) (ans : Answers) : Prop :=
  ¬ tooLong ctrl ∧ ctrl.bRequest = 0x0b ∧ ctrl.bRequestType = 0x01 ∧
    ∃ f, cdev.setInterfaceTarget ctrl = some f ∧
      ans.setAlt f ctrl.wIndex.toNat ctrl.wValue.toNat = usbGadgetDelayedStatus

/-- The steps after which the count is that of one SETUP packet: no SET_INTERFACE is delayed, and
no function continues after a reset, while another SETUP packet waits. -/
def Orderly (s : Control) : ControlEvent → Prop
  | .setup ctrl ans => SetInterfaceDelays s.cdev ctrl ans → s.cdev.delayedStatus = 0
  | .setupContinue i => ∀ t, s.transfers[i]? = some t → t.reset = true → s.cdev.delayedStatus = 0
  | .disconnect => True

/-! ## Facts of the account -/

section Account

variable {t : Transfer}

theorem Transfer.live_abandon : t.abandon.live = 0 := by
  unfold Transfer.abandon
  by_cases howed : t.owed = 0
  · rw [if_pos howed]
    unfold Transfer.live
    rw [howed, ite_self]
  · rw [if_neg howed]
    rfl

theorem Transfer.Ok.abandon (h : t.Ok) : t.abandon.Ok := by
  unfold Transfer.abandon
  by_cases howed : t.owed = 0
  · rwa [if_pos howed]
  · rw [if_neg howed]
    intro hasked
    have hqueued := h hasked
    rw [if_neg fun hdone => howed hdone.1] at hqueued
    exact hqueued.trans (if_neg fun hdone => Bool.noConfusion hdone.2).symm

theorem Transfer.live_of_not_reset (h : t.reset = false) : t.live = t.owed := by
  unfold Transfer.live
  rw [h, if_neg Bool.false_ne_true]

theorem Transfer.live_of_reset (h : t.reset = true) : t.live = 0 := if_pos h

theorem abandon_all {ts : List Transfer} (h : ∀ u ∈ ts, u.Ok) :
    (∀ u ∈ ts.map Transfer.abandon, u.live = 0) ∧ ∀ u ∈ ts.map Transfer.abandon, u.Ok := by
  constructor
  · intro u hu
    obtain ⟨v, -, rfl⟩ := List.mem_map.mp hu
    exact Transfer.live_abandon
  · intro u hu
    obtain ⟨v, hv, rfl⟩ := List.mem_map.mp hu
    exact (h v hv).abandon

theorem sum_live_eq_zero {ts : List Transfer} (h : ∀ u ∈ ts, u.live = 0) :
    (ts.map Transfer.live).sum = 0 := by
  refine List.sum_eq_zero fun x hx => ?_
  obtain ⟨u, hu, rfl⟩ := List.mem_map.mp hx
  exact h u hu

theorem foldl_record_setups {calls : List Call} (h : ∀ call ∈ calls, ∃ cb, call = .setup cb)
    (ts : List Transfer) : calls.foldl record ts = ts := by
  induction calls with
  | nil => rfl
  | cons call calls ih =>
    obtain ⟨cb, rfl⟩ := h call List.mem_cons_self
    exact ih fun call' hcall => h call' (List.mem_cons_of_mem _ hcall)

end Account

/-- The count is that of one SETUP packet, and the account is in order. -/
structure Accounted (s : Control) : Prop where
  config : s.cdev.config = none → s.cdev.delayedStatus = 0
  sum : (s.transfers.map Transfer.live).sum = s.cdev.delayedStatus
  one : ∀ t ∈ s.transfers, t.live = 0 ∨ t.live = s.cdev.delayedStatus
  ok : StatusOk s

/-- Inside a SETUP packet: the count is that of the packet `t`, the newest, and of no other. -/
structure Heading (n : Nat) (t : Transfer) (ts : List Transfer) : Prop where
  count : t.live = n
  asked : t.owed = t.asked
  others : ∀ u ∈ ts, u.live = 0
  ok : ∀ u ∈ ts, u.Ok

namespace Heading

variable {n : Nat} {t : Transfer} {ts : List Transfer}

theorem reset (ht : t.owed = t.asked) (hok : ∀ u ∈ ts, u.Ok) :
    Heading 0 t.abandon (ts.map Transfer.abandon) where
  count := Transfer.live_abandon
  asked := by
    unfold Transfer.abandon
    split
    · exact ht
    · exact ht
  others := (abandon_all hok).1
  ok := (abandon_all hok).2

theorem ask (h : Heading n t ts) (hreset : t.reset = false) : Heading (n + 1) t.ask ts where
  count := by
    have hlive : t.ask.live = t.owed + 1 := Transfer.live_of_not_reset hreset
    rw [hlive, ← h.count, Transfer.live_of_not_reset hreset]
  asked := congrArg (· + 1) h.asked
  others := h.others
  ok := h.ok

theorem setAlt (cdev : CompositeDev) (h : Heading cdev.delayedStatus t ts)
    (hreset : t.reset = false) (f : FnId) (intf alt : Nat) (ret : Int) :
    ∃ t', record (t :: ts) (.setAlt f intf alt ret) = t' :: ts ∧ t'.reset = false ∧
      Heading (cdev.countDelay ret).delayedStatus t' ts := by
  unfold CompositeDev.countDelay
  by_cases hret : ret = usbGadgetDelayedStatus
  · rw [if_pos hret]
    exact ⟨t.ask, if_pos hret, hreset, h.ask hreset⟩
  · rw [if_neg hret]
    exact ⟨t, if_neg hret, hreset, h⟩

theorem asked_eq (h : Heading n t ts) (hreset : t.reset = false) : t.asked = n :=
  h.asked.symm.trans ((Transfer.live_of_not_reset hreset).symm.trans h.count)

theorem accounted (h : Heading n t ts) {cdev : CompositeDev} (hn : cdev.delayedStatus = n)
    (hconfig : cdev.config = none → n = 0) {queued : Nat} (hqueued : t.asked ≠ 0 → queued = 0) :
    Accounted ⟨cdev, { t with queued := queued } :: ts⟩ := by
  have hzero := sum_live_eq_zero h.others
  have hlive : Transfer.live { t with queued := queued } = n := h.count
  refine ⟨fun hnone => hn.trans (hconfig hnone), ?_, fun u hu => ?_, fun u hu => ?_⟩
  · show ((_ :: ts).map Transfer.live).sum = _
    rw [List.map_cons, List.sum_cons, hzero, Nat.add_zero, hlive, hn]
  · rcases List.mem_cons.mp hu with rfl | hu
    · exact .inr (hlive.trans hn.symm)
    · exact .inl (h.others u hu)
  · rcases List.mem_cons.mp hu with rfl | hu
    · intro hasked
      refine (hqueued hasked).trans (if_neg fun hdone => hasked ?_).symm
      exact h.asked.symm.trans hdone.1
    · exact h.ok u hu

end Heading

/-! ## SET_CONFIGURATION -/

theorem config_countDelay (cdev : CompositeDev) (ret : Int) :
    (cdev.countDelay ret).config = cdev.config := by
  unfold CompositeDev.countDelay
  split <;> rfl

theorem resetConfig_of_isSome {cdev : CompositeDev} (h : cdev.config.isSome) :
    cdev.resetConfig.config = none ∧ cdev.resetConfig.delayedStatus = 0 := by
  obtain ⟨c, hc⟩ := Option.isSome_iff_exists.mp h
  unfold CompositeDev.resetConfig
  rw [hc]
  exact ⟨rfl, rfl⟩

/-- **The loop of `set_config`** counts the functions that ask for delay, and nothing after one
has refused. -/
theorem heading_setInterfaces (c : Configuration) (setAlt : FnId → Nat → Nat → Int) :
    ∀ (k tmp : Nat) (cdev : CompositeDev) (result : Int) (t : Transfer) (ts : List Transfer),
      Heading cdev.delayedStatus t ts → t.reset = false → cdev.config.isSome →
      ∃ t' ts', (setInterfaces c setAlt tmp k cdev result).2.2.foldl record (t :: ts) = t' :: ts' ∧
        Heading (setInterfaces c setAlt tmp k cdev result).2.1.delayedStatus t' ts' ∧
        ((setInterfaces c setAlt tmp k cdev result).2.1.config = none →
          (setInterfaces c setAlt tmp k cdev result).2.1.delayedStatus = 0) ∧
        ((setInterfaces c setAlt tmp k cdev result).1 < 0 ∨
          t'.asked = (setInterfaces c setAlt tmp k cdev result).2.1.delayedStatus ∨
          result < 0) := by
  intro k
  induction k with
  | zero =>
    intro tmp cdev result t ts h hreset hconfig
    refine ⟨t, ts, rfl, h, fun hnone => ?_, .inr (.inl (h.asked_eq hreset))⟩
    exact absurd hnone (Option.isSome_iff_ne_none.mp hconfig)
  | succ k ih =>
    intro tmp cdev result t ts h hreset hconfig
    rw [setInterfaces]
    cases c.interface tmp with
    | none =>
      refine ⟨t, ts, rfl, h, fun hnone => ?_, .inr (.inl (h.asked_eq hreset))⟩
      exact absurd hnone (Option.isSome_iff_ne_none.mp hconfig)
    | some f =>
      dsimp only
      obtain ⟨t₁, hrec, hreset₁, h₁⟩ := Heading.setAlt (cdev.recordEndpoints f) h hreset f
        tmp 0 (setAlt f tmp 0)
      by_cases hneg : setAlt f tmp 0 < 0
      · rw [if_pos hneg]
        have hconfig₁ : (cdev.recordEndpoints f).config.isSome := hconfig
        obtain ⟨-, hzero⟩ := resetConfig_of_isSome hconfig₁
        refine ⟨t₁.abandon, ts.map Transfer.abandon, ?_, ?_, fun _ => hzero, .inl hneg⟩
        · show record (record (t :: ts) _) .resetConfig = _
          rw [hrec]
          rfl
        · rw [hzero]
          exact Heading.reset h₁.asked h₁.ok
      · rw [if_neg hneg]
        have hconfig₁ : ((cdev.recordEndpoints f).countDelay (setAlt f tmp 0)).config.isSome := by
          rw [config_countDelay]
          exact hconfig
        obtain ⟨t', ts', hrec', h', hnone, hret⟩ := ih (tmp + 1) _ (setAlt f tmp 0) t₁ ts h₁
          hreset₁ hconfig₁
        refine ⟨t', ts', ?_, h', hnone, ?_⟩
        · show List.foldl record (record (t :: ts) _) _ = _
          rw [hrec]
          exact hrec'
        · rcases hret with hret | hret | hret
          · exact .inl hret
          · exact .inr (.inl hret)
          · exact absurd hret hneg

variable {s : Control}

theorem Accounted.live_eq_zero (h : Accounted s) (hzero : s.cdev.delayedStatus = 0) :
    ∀ u ∈ s.transfers, u.live = 0 := by
  intro u hu
  rcases h.one u hu with hlive | hlive
  · exact hlive
  · exact hlive.trans hzero

theorem Accounted.leaveConfig (h : Accounted s) :
    s.cdev.leaveConfig.1.config = none ∧ s.cdev.leaveConfig.1.delayedStatus = 0 ∧
      (∀ t, t.owed = 0 → ∃ ts, s.cdev.leaveConfig.2.foldl record (t :: s.transfers) = t :: ts ∧
        s.cdev.leaveConfig.2.foldl record s.transfers = ts ∧
        (∀ u ∈ ts, u.live = 0) ∧ ∀ u ∈ ts, u.Ok) := by
  unfold CompositeDev.leaveConfig
  by_cases hconfig : s.cdev.config.isSome
  · rw [if_pos hconfig]
    obtain ⟨hnone, hzero⟩ := resetConfig_of_isSome hconfig
    refine ⟨hnone, hzero, fun t howed =>
      ⟨s.transfers.map Transfer.abandon, ?_, rfl, abandon_all h.ok⟩⟩
    show t.abandon :: _ = _
    rw [Transfer.abandon, if_pos howed]
  · rw [if_neg hconfig]
    have hnone := Option.not_isSome_iff_eq_none.mp hconfig
    have hzero := h.config hnone
    exact ⟨hnone, hzero, fun t _ => ⟨s.transfers, rfl, rfl, h.live_eq_zero hzero, h.ok⟩⟩

/-! ## One SETUP packet -/

section Cases

variable (cdev : CompositeDev) (ctrl : SetupPacket) (ans : Answers)

/-- The outcome leaves the device as it was, and no `set_alt` was called. -/
def Outcome.Quiet (o : Outcome) (cdev : CompositeDev) : Prop :=
  o.cdev = cdev ∧ ∀ call ∈ o.calls, ∃ cb, call = .setup cb

theorem quiet_of_calls_eq_nil {o : Outcome} (hcdev : o.cdev = cdev) (hcalls : o.calls = []) :
    o.Quiet cdev :=
  ⟨hcdev, fun _ h => absurd (hcalls ▸ h) List.not_mem_nil⟩

theorem quiet_respond (value : Int) : (cdev.respond value).Quiet cdev :=
  quiet_of_calls_eq_nil cdev rfl rfl

theorem quiet_tryFunSetup (f : Option FnId) : (cdev.tryFunSetup ans f).Quiet cdev := by
  have hcall : ∀ cb, (cdev.callSetup ans cb).Quiet cdev := fun cb =>
    ⟨rfl, fun _ h => ⟨cb, List.mem_singleton.mp h⟩⟩
  have hstall : Outcome.Quiet { cdev := cdev, value := -EOPNOTSUPP } cdev :=
    quiet_of_calls_eq_nil cdev rfl rfl
  unfold CompositeDev.tryFunSetup
  split
  · exact hcall _
  · split
    · exact hstall
    · split
      · exact hcall _
      · split
        · split
          · exact hcall _
          · exact hstall
        · exact hstall

theorem quiet_unknownRequest : (cdev.unknownRequest ctrl ans).Quiet cdev := by
  unfold CompositeDev.unknownRequest
  split
  · exact quiet_of_calls_eq_nil cdev rfl rfl
  · split
    · exact quiet_of_calls_eq_nil cdev rfl rfl
    · exact quiet_tryFunSetup cdev ans _

theorem quiet_getInterface : (cdev.getInterface ctrl ans).Quiet cdev := by
  unfold CompositeDev.getInterface
  split <;> exact quiet_respond cdev _

theorem quiet_getStatus : (cdev.getStatus ctrl ans).Quiet cdev := by
  have hunknown := quiet_unknownRequest cdev ctrl ans
  unfold CompositeDev.getStatus
  split
  · split
    · exact hunknown
    · exact quiet_respond cdev _
  · split
    · exact hunknown
    · split
      · exact hunknown
      · exact quiet_respond cdev _

theorem quiet_feature : (cdev.feature ctrl ans).Quiet cdev := by
  have hunknown := quiet_unknownRequest cdev ctrl ans
  unfold CompositeDev.feature
  split
  · exact hunknown
  · split
    · exact hunknown
    · split
      · exact quiet_respond cdev _
      · split <;> exact quiet_respond cdev _

/-- **The SETUP packets that matter** for delayed status are SET_CONFIGURATION and
SET_INTERFACE. -/
theorem compositeSetup_cases :
    (cdev.compositeSetup ctrl ans).Quiet cdev ∨
      cdev.compositeSetup ctrl ans = cdev.setConfiguration ctrl ans ∨
      ¬ tooLong ctrl ∧ ctrl.bRequest = 0x0b ∧ ctrl.bRequestType = 0x01 ∧
        cdev.compositeSetup ctrl ans = cdev.setInterface ctrl ans := by
  have hunknown := quiet_unknownRequest cdev ctrl ans
  unfold CompositeDev.compositeSetup
  by_cases hlong : tooLong ctrl
  · rw [if_pos hlong]
    exact .inl (quiet_of_calls_eq_nil cdev rfl rfl)
  rw [if_neg hlong]
  by_cases htype : requestType ctrl ≠ 0
  · rw [if_pos htype]
    exact .inl hunknown
  rw [if_neg htype]
  unfold CompositeDev.standardRequest
  by_cases hdesc : ctrl.bRequest = 0x06
  · rw [if_pos hdesc]
    split
    · exact .inl hunknown
    · exact .inl (quiet_respond cdev _)
  rw [if_neg hdesc]
  by_cases hconf : ctrl.bRequest = 0x09
  · rw [if_pos hconf]
    split
    · exact .inl hunknown
    · exact .inr (.inl rfl)
  rw [if_neg hconf]
  by_cases hgetconf : ctrl.bRequest = 0x08
  · rw [if_pos hgetconf]
    split
    · exact .inl hunknown
    · exact .inl (quiet_respond cdev _)
  rw [if_neg hgetconf]
  by_cases hset : ctrl.bRequest = 0x0b
  · rw [if_pos hset]
    by_cases hrecip : ctrl.bRequestType ≠ 0x01
    · rw [if_pos hrecip]
      exact .inl hunknown
    · rw [if_neg hrecip]
      exact .inr (.inr ⟨hlong, hset, not_not.mp hrecip, rfl⟩)
  rw [if_neg hset]
  split
  · split
    · exact .inl hunknown
    · exact .inl (quiet_getInterface cdev ctrl ans)
  · split
    · exact .inl (quiet_getStatus cdev ctrl ans)
    · split
      · exact .inl (quiet_feature cdev ctrl ans)
      · exact .inl hunknown

end Cases

theorem Accounted.quiet (h : Accounted s) {queued : Nat} :
    Accounted ⟨s.cdev, { queued := queued } :: s.transfers⟩ where
  config := h.config
  sum := by
    show ((_ :: s.transfers).map Transfer.live).sum = _
    rw [List.map_cons, List.sum_cons, h.sum]
    exact Nat.zero_add _
  one := by
    intro u hu
    rcases List.mem_cons.mp hu with rfl | hu
    · exact .inl rfl
    · exact h.one u hu
  ok := by
    intro u hu
    rcases List.mem_cons.mp hu with rfl | hu
    · exact fun hasked => absurd rfl hasked
    · exact h.ok u hu

theorem Outcome.response_eq_none {o : Outcome}
    (h : o.value < 0 ∨ o.value = usbGadgetDelayedStatus) : o.response = none := by
  unfold Outcome.response
  refine if_neg fun hval => ?_
  rcases h with h | h
  · omega
  · exact hval.2 h

/-- SET_CONFIGURATION keeps the account. -/
theorem Accounted.setConfiguration (h : Accounted s) (ctrl : SetupPacket) (ans : Answers) :
    let o := s.cdev.setConfiguration ctrl ans
    Accounted ⟨o.cdev, (o.calls.foldl record ({} :: s.transfers)).modifyHead fun t =>
      { t with queued := if o.response.isSome then 1 else 0 }⟩ := by
  obtain ⟨hnone, hzero, hleave⟩ := h.leaveConfig
  obtain ⟨ts, hrec, -, hlive, hok⟩ := hleave {} rfl
  have hheading : Heading 0 {} ts := ⟨rfl, rfl, hlive, hok⟩
  unfold CompositeDev.setConfiguration CompositeDev.setConfig
  by_cases hnumber : ctrl.wValue.toNat = 0
  · rw [if_pos hnumber]
    dsimp only
    rw [hrec]
    exact hheading.accounted hzero (fun _ => rfl) (fun hasked => absurd rfl hasked)
  rw [if_neg hnumber]
  cases s.cdev.configs.find? fun c => c.bConfigurationValue.toNat = ctrl.wValue.toNat with
  | none => exact h.quiet
  | some c =>
    dsimp only
    have hstart : Heading s.cdev.leaveConfig.1.delayedStatus {} ts := hzero.symm ▸ hheading
    obtain ⟨t', ts', hrec', h', hnone', hret⟩ := heading_setInterfaces c ans.setAlt
      maxConfigInterfaces 0 { s.cdev.leaveConfig.1 with config := some c } 0 {} ts hstart rfl rfl
    rw [List.foldl_append, hrec, hrec']
    refine h'.accounted rfl hnone' fun hasked => ?_
    rw [Outcome.response_eq_none]
    · rfl
    · show setConfigResult _ _ < 0 ∨ setConfigResult _ _ = _
      unfold setConfigResult
      by_cases hdelay : 0 ≤ (setInterfaces c ans.setAlt 0 maxConfigInterfaces
          { s.cdev.leaveConfig.1 with config := some c } 0).1 ∧
          (setInterfaces c ans.setAlt 0 maxConfigInterfaces
          { s.cdev.leaveConfig.1 with config := some c } 0).2.1.delayedStatus ≠ 0
      · rw [if_pos hdelay]
        exact .inr rfl
      · rw [if_neg hdelay]
        rcases hret with hret | hret | hret
        · exact .inl hret
        · exact .inl (Int.not_le.mp fun hle => hdelay ⟨hle, hret ▸ hasked⟩)
        · exact absurd hret (by decide)

theorem Accounted.setInterface (h : Accounted s) {ctrl : SetupPacket} {ans : Answers}
    (hdelay : ∀ f, s.cdev.setInterfaceTarget ctrl = some f →
      ans.setAlt f ctrl.wIndex.toNat ctrl.wValue.toNat = usbGadgetDelayedStatus →
      s.cdev.delayedStatus = 0) :
    let o := s.cdev.setInterface ctrl ans
    Accounted ⟨o.cdev, (o.calls.foldl record ({} :: s.transfers)).modifyHead fun t =>
      { t with queued := if o.response.isSome then 1 else 0 }⟩ := by
  unfold CompositeDev.setInterface
  cases htarget : s.cdev.setInterfaceTarget ctrl with
  | none => exact h.quiet
  | some f =>
    dsimp only
    unfold CompositeDev.countDelay
    by_cases hret : ans.setAlt f ctrl.wIndex.toNat ctrl.wValue.toNat = usbGadgetDelayedStatus
    · have hzero := hdelay f htarget hret
      have hheading : Heading 0 {} s.transfers := ⟨rfl, rfl, h.live_eq_zero hzero, h.ok⟩
      rw [if_pos hret, Outcome.response_eq_none (.inr hret), List.foldl_cons, List.foldl_nil,
        record, if_pos hret]
      refine (hheading.ask rfl).accounted (congrArg (· + 1) hzero) (fun hnone => ?_) fun _ => rfl
      -- without a configuration there is no function to ask for delay
      have howner : s.cdev.interfaceOwner ctrl = none := by
        unfold CompositeDev.interfaceOwner
        rw [show s.cdev.config = none from hnone, Option.bind_none, ite_self]
      unfold CompositeDev.setInterfaceTarget at htarget
      rw [howner] at htarget
      exact nomatch htarget
    · rw [if_neg hret, List.foldl_cons, List.foldl_nil, record, if_neg hret]
      exact h.quiet

/-! ## Runs -/

/-- The account of one SETUP packet changes: by nothing that is live, or it is the one that the
count is about. -/
theorem Accounted.set (h : Accounted s) {i : Nat} {t t' : Transfer} {cdev : CompositeDev}
    (ht : s.transfers[i]? = some t) (hok : t'.Ok) (hconfig : cdev.config = s.cdev.config)
    (hle : cdev.delayedStatus ≤ s.cdev.delayedStatus)
    (hlive : t'.live = t.live ∧ cdev.delayedStatus = s.cdev.delayedStatus ∨
      t.live = s.cdev.delayedStatus ∧ t'.live = cdev.delayedStatus) :
    Accounted ⟨cdev, s.transfers.set i t'⟩ := by
  obtain ⟨hi, hget⟩ := List.getElem?_eq_some_iff.mp ht
  have hmem : t ∈ s.transfers := hget ▸ List.getElem_mem hi
  have hsplit : s.transfers = s.transfers.take i ++ t :: s.transfers.drop (i + 1) := by
    rw [← hget, List.getElem_cons_drop, List.take_append_drop]
  have hset : s.transfers.set i t' = s.transfers.take i ++ t' :: s.transfers.drop (i + 1) :=
    List.set_eq_take_append_cons_drop.trans (if_pos hi)
  have hsum := h.sum
  have hone := h.one
  have hallOk := h.ok
  unfold StatusOk at hallOk
  rw [hsplit] at hsum hone hallOk
  rw [hset]
  generalize s.transfers.take i = pre at *
  generalize s.transfers.drop (i + 1) = post at *
  rw [List.map_append, List.map_cons, List.sum_append, List.sum_cons] at hsum
  have hothers : ∀ u, u ∈ pre ∨ u ∈ post → u.live = 0 ∨ u.live = cdev.delayedStatus := by
    intro u hu
    rcases hlive with ⟨-, hcount⟩ | ⟨hcount, -⟩
    · rw [hcount]
      exact hone u (by simpa using hu.imp_right .inr)
    · have hpre : (pre.map Transfer.live).sum = 0 := by omega
      have hpost : (post.map Transfer.live).sum = 0 := by omega
      rw [List.sum_eq_zero_iff_forall_eq_nat, List.forall_mem_map] at hpre hpost
      exact .inl (hu.elim (hpre u) (hpost u))
  refine ⟨fun hnone => ?_, ?_, fun u hu => ?_, fun u hu => ?_⟩
  · have := h.config (hconfig.symm.trans hnone)
    show cdev.delayedStatus = 0
    omega
  · show ((pre ++ t' :: post).map Transfer.live).sum = cdev.delayedStatus
    rw [List.map_append, List.map_cons, List.sum_append, List.sum_cons]
    omega
  · rcases List.mem_append.mp hu with hu | hu
    · exact hothers u (.inl hu)
    · rcases List.mem_cons.mp hu with rfl | hu
      · rcases hlive with ⟨hlive, hcount⟩ | ⟨-, hlive⟩
        · rw [hlive, hcount]
          exact h.one t hmem
        · exact .inr hlive
      · exact hothers u (.inr hu)
  · rcases List.mem_append.mp hu with hu | hu
    · exact hallOk u (List.mem_append_left _ hu)
    · rcases List.mem_cons.mp hu with rfl | hu
      · exact hok
      · exact hallOk u (List.mem_append_right _ (List.mem_cons_of_mem _ hu))

/-- **A continue**, with a count of its own, queues the status stage just when it is the last. -/
theorem Accounted.setupContinue (h : Accounted s) {i : Nat} {t : Transfer}
    (ht : s.transfers[i]? = some t) (howed : t.owed ≠ 0)
    (hreset : t.reset = true → s.cdev.delayedStatus = 0) :
    Accounted ⟨s.cdev.usbCompositeSetupContinue.2, s.transfers.set i
      { t with
        owed := t.owed - 1
        queued := t.queued + if s.cdev.usbCompositeSetupContinue.1 then 1 else 0 }⟩ := by
  have hmem : t ∈ s.transfers := List.mem_of_getElem? ht
  have hpending : t.asked ≠ 0 → t.queued = 0 := fun hasked =>
    (h.ok t hmem hasked).trans (if_neg fun hdone => howed hdone.1)
  unfold CompositeDev.usbCompositeSetupContinue
  cases hres : t.reset with
  | true =>
    have hzero := hreset hres
    rw [if_pos hzero]
    refine h.set ht (fun hasked => ?_) rfl (Nat.le_refl _) (.inl ⟨?_, rfl⟩)
    · exact (hpending hasked).trans (if_neg fun hdone => Bool.noConfusion hdone.2).symm
    · rw [Transfer.live_of_reset hres]
      rfl
  | false =>
    have hlive := Transfer.live_of_not_reset hres
    have hcount : t.owed = s.cdev.delayedStatus := by
      rcases h.one t hmem with hnone | hcount
      · exact absurd (hlive.symm.trans hnone) howed
      · exact hlive.symm.trans hcount
    rw [if_neg (hcount ▸ howed), ← hcount]
    refine h.set ht (fun hasked => ?_) rfl (hcount ▸ Nat.sub_le _ _)
      (.inr ⟨hlive.trans hcount, rfl⟩)
    show t.queued + (if decide (t.owed = 1) = true then 1 else 0) =
      if t.owed - 1 = 0 ∧ false = false then 1 else 0
    rw [hpending hasked]
    by_cases hlast : t.owed = 1
    · rw [hlast]
      rfl
    · rw [if_neg (by simpa using hlast), if_neg (by omega)]

/-- **The step lemma.**  An orderly step keeps the count that of one SETUP packet. -/
theorem Accounted.step (h : Accounted s) {e : ControlEvent} {s' : Control} (he : Orderly s e)
    (hstep : s.step e = some s') : Accounted s' := by
  cases e with
  | setup ctrl ans =>
    obtain rfl := Option.some.inj hstep
    rcases compositeSetup_cases s.cdev ctrl ans with
      ⟨hcdev, hcalls⟩ | heq | ⟨hlong, hreq, htype, heq⟩
    · rw [hcdev, foldl_record_setups hcalls]
      exact h.quiet
    · rw [heq]
      exact h.setConfiguration ctrl ans
    · rw [heq]
      exact h.setInterface fun f htarget hret => he ⟨hlong, hreq, htype, f, htarget, hret⟩
  | setupContinue i =>
    cases ht : s.transfers[i]? with
    | none =>
      rw [Control.step, ht] at hstep
      exact nomatch hstep
    | some t =>
      rw [Control.step, ht] at hstep
      obtain ⟨howed, ⟨⟩⟩ := Option.ite_none_left_eq_some.mp hstep
      exact h.setupContinue ht howed (he t ht)
  | disconnect =>
    obtain rfl := Option.some.inj hstep
    obtain ⟨hnone, hzero, hleave⟩ := h.leaveConfig
    obtain ⟨ts, -, hrec, hlive, hok⟩ := hleave {} rfl
    rw [hrec]
    refine ⟨fun _ => hzero, ?_, fun t ht => .inl (hlive t ht), hok⟩
    exact (sum_live_eq_zero hlive).trans hzero.symm

theorem accounted_unconfigured (cdev : CompositeDev) : Accounted (unconfigured cdev) where
  config _ := rfl
  sum := rfl
  one _ h := absurd h List.not_mem_nil
  ok _ h := absurd h List.not_mem_nil

/-- **Delayed status.**  In every state that a run of orderly steps reaches, the status stage of
each SETUP packet whose functions asked for delay has been queued once if all of them have
continued without a reset, and not at all otherwise. -/
theorem statusOk_of_orderly (cdev : CompositeDev) (es : List ControlEvent)
    (horderly : Along Control.step Orderly (unconfigured cdev) es) {s : Control}
    (hrun : exec Control.step (unconfigured cdev) es = some s) : StatusOk s :=
  (Runs.exec_invariant (fun _ _ _ h he hstep => h.step he hstep) (accounted_unconfigured cdev)
    horderly hrun).ok

/-! ## Runs that go wrong -/

/-- One configuration, with two interfaces of the functions 1 and 2. -/
def twoFunctions : CompositeDev where
  fn _ := { hasGetAlt := true }
  configs :=
    [{ bConfigurationValue := 1
       interface := fun id => if id = 0 then some 1 else if id = 1 then some 2 else none
       functions := [1, 2]
       nextInterfaceId := 2 }]

/-- SET_CONFIGURATION, to which the functions `fs` ask for delay. -/
def setConfigurationDelayed (fs : List FnId) : ControlEvent :=
  .setup ⟨0x00, 0x09, 1, 0, 0⟩
    { setAlt := fun f _ _ => if f ∈ fs then usbGadgetDelayedStatus else 0 }

/-- SET_INTERFACE, to which the function asks for delay. -/
def setInterfaceDelayed (intf : UInt16) : ControlEvent :=
  .setup ⟨0x01, 0x0b, 1, intf, 0⟩ { setAlt := fun _ _ _ => usbGadgetDelayedStatus }

/-- Both functions delay a SET_CONFIGURATION and continue: an orderly run. -/
theorem statusOk_twoFunctions :
    ∃ s, exec Control.step (unconfigured twoFunctions)
        [setConfigurationDelayed [1, 2], .setupContinue 0, .setupContinue 0] = some s ∧
      StatusOk s := by
  obtain ⟨s, hrun⟩ : ∃ s, exec Control.step (unconfigured twoFunctions)
      [setConfigurationDelayed [1, 2], .setupContinue 0, .setupContinue 0] = some s := ⟨_, rfl⟩
  refine ⟨s, hrun, statusOk_of_orderly twoFunctions
    [setConfigurationDelayed [1, 2], .setupContinue 0, .setupContinue 0] ?_ hrun⟩
  refine ⟨fun _ => rfl, fun s₁ h₁ => ?_⟩
  obtain rfl := Option.some.inj h₁
  refine ⟨fun t ht hreset => ?_, fun s₂ h₂ => ?_⟩
  · obtain rfl := Option.some.inj ht
    exact nomatch hreset
  · obtain rfl := Option.some.inj h₂
    refine ⟨fun t ht hreset => ?_, fun _ _ => trivial⟩
    obtain rfl := Option.some.inj ht
    exact nomatch hreset

/-- The status stage of a second SET_CONFIGURATION is queued by a continue for the first one, which
was reset; and that of a SET_INTERFACE whose function continues while another SET_INTERFACE waits
is not queued. -/
theorem not_statusOk :
    (∃ s, exec Control.step (unconfigured twoFunctions)
        [setConfigurationDelayed [1], setConfigurationDelayed [1], .setupContinue 1] = some s ∧
      ¬ StatusOk s) ∧
    ∃ s, exec Control.step (unconfigured twoFunctions)
        [setConfigurationDelayed [], setInterfaceDelayed 0, setInterfaceDelayed 1,
          .setupContinue 1] = some s ∧
      ¬ StatusOk s := by
  constructor
  · refine ⟨_, rfl, fun hok => ?_⟩
    exact absurd (hok _ (List.mem_cons_of_mem _ List.mem_cons_self) (by decide +kernel))
      (by decide +kernel)
  · refine ⟨_, rfl, fun hok => ?_⟩
    exact absurd (hok _ (List.mem_cons_of_mem _ List.mem_cons_self) (by decide +kernel))
      (by decide +kernel)

end RealtekIpcam.Composite
