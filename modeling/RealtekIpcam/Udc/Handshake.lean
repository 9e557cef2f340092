import RealtekIpcam.Udc.LockDiscipline
import RealtekIpcam.Udc.Setup

/-!
# One handshake for a SETUP packet

A control transfer ends in one of four ways: ep0 is stalled, the status stage is acknowledged, a
request is queued on ep0 for the data stage, or the packet is handed on to the gadget driver, which
then answers it.  `rts_usb_setup_process` should choose one of them for every packet.

`Action.handshake` reads the choice off the actions of the driver.  The stall bit of ep0 has two
writers: `rts_set_cxstall`, and `rts_set_epnstall` for an endpoint object whose number is 0, which
is that of ep0 and that of every endpoint that is not enabled.

`oneHandshake_iff` says which packets get one answer in which states.  Those that do not are
GET_STATUS of ep0, which is stalled and answered with data; SET_FEATURE of ep0 or of an endpoint
that is not enabled, which is stalled and acknowledged; and those that never come back, because an
index leaves a table or the lock is taken twice.
-/

namespace RealtekIpcam.Udc

open LockLogic

/-! ## Handshakes -/

/-- The answers to a SETUP packet. -/
inductive Handshake where
  | stall
  | acknowledge
  | dataStage
  | delegated
  deriving DecidableEq

/-- The answer that an action arms, where `num` gives the numbers of the endpoints. -/
def Action.handshake (num : EpId → Nat) : Action → Option Handshake
  | .cxstall => some .stall
  | .epnstall e true => if num e = 0 then some .stall else none
  | .cxdone => some .acknowledge
  | .queued e _ => if e = ep0 then some .dataStage else none
  | _ => none

/-- Between `u` and `v` the answers `hs` are armed, the last one first. -/
def Arms (num : EpId → Nat) (hs : List Handshake) (u v : Udc) : Prop :=
  ∃ l, v.log = l ++ u.log ∧ l.filterMap (Action.handshake num) = hs

/-- What the return value of `rts_usb_setup_process` adds: a nonzero one hands the packet on. -/
def delegates (ret : Int) : List Handshake := if ret ≠ 0 then [.delegated] else []

/-- `rts_usb_setup_process` comes back, with the lock held, and has chosen one answer. -/
def OneHandshake (g : Callbacks) (highSpeed : Bool) (ctrl : SetupPacket) (u : Udc) : Prop :=
  ∃ ret v hs h, rtsUsbSetupProcess g highSpeed ctrl u true = .ret ret v true ∧
    Arms (fun e => (u.ep e).epnum) hs u v ∧ delegates ret ++ hs = [h]

/-- The packet gets one answer in the state `u`. -/
def Answerable (ctrl : SetupPacket) (u : Udc) : Prop :=
  ctrl.bRequestType &&& 0x60 = 0 →
    if ctrl.bRequest = 0x00 then recipient ctrl = 2 → InTable ctrl ∧ targetsEp0 ctrl = false
    else if ctrl.bRequest = 0x01 then InTable ctrl ∧ ¬ ClearsHalt ctrl u
    else if ctrl.bRequest = 0x03 then
      recipient ctrl = 2 →
        targetsEp0 ctrl = false ∧ ∃ e, targetSlot ctrl = some e ∧ (u.ep e).epnum ≠ 0
    else True

variable {u v w : Udc} {num : EpId → Nat} {hs hs' : List Handshake} {ctrl : SetupPacket}
  {g : Callbacks} {highSpeed : Bool}

theorem Arms.refl (u : Udc) : Arms num [] u u := ⟨[], rfl, rfl⟩

theorem Arms.of_log (h : v.log = u.log) : Arms num [] u v := ⟨[], h, rfl⟩

theorem Arms.trans (h : Arms num hs u v) (h' : Arms num hs' v w) : Arms num (hs' ++ hs) u w := by
  obtain ⟨l, hl, rfl⟩ := h
  obtain ⟨l', hl', rfl⟩ := h'
  refine ⟨l' ++ l, ?_, List.filterMap_append⟩
  rw [hl', hl, List.append_assoc]

theorem Arms.trans_log (h : Arms num hs u v) (hlog : w.log = v.log) : Arms num hs u w :=
  h.trans (Arms.of_log hlog)

theorem Arms.log_trans (hlog : v.log = u.log) (h : Arms num hs v w) : Arms num hs u w := by
  have hall := (Arms.of_log hlog).trans h
  rwa [List.append_nil] at hall

theorem arms_emit (a : Action) (u : Udc) : Arms num (a.handshake num).toList u (u.emit a) := by
  refine ⟨[a], rfl, ?_⟩
  cases h : a.handshake num with
  | none => rw [List.filterMap_cons_none h]; rfl
  | some b => rw [List.filterMap_cons_some h]; rfl

theorem arms_emit_none {a : Action} (h : a.handshake num = none) (u : Udc) :
    Arms num [] u (u.emit a) := by
  have harms : Arms num (a.handshake num).toList u (u.emit a) := arms_emit a u
  rwa [h] at harms

theorem Arms.unique (h : Arms num hs u v) (h' : Arms num hs' u v) : hs = hs' := by
  obtain ⟨l, hl, rfl⟩ := h
  obtain ⟨l', hl', rfl⟩ := h'
  rw [hl] at hl'
  rw [List.append_cancel_right hl']

theorem arms_cxstall (u : Udc) : Arms num [.stall] u u.rtsSetCxstall := arms_emit _ u

theorem arms_cxdone (u : Udc) : Arms num [.acknowledge] u u.rtsSetCxdone := arms_emit _ u

/-! ## The data stage -/

theorem log_maybe_maxpkt (c : Prop) [Decidable c] (u : Udc) (e : EpId) (size : UInt16) :
    (if c then u.rtsSetEpMaxpkt e size else u).log = u.log := by
  split
  · rfl
  · rfl

theorem log_rtsUvcQuirks (u : Udc) (e : EpId) (r : ReqId) : (u.rtsUvcQuirks e r).log = u.log := by
  unfold rtsUvcQuirks
  dsimp only
  cases (u.ep e).desc with
  | none => rfl
  | some desc =>
    dsimp only
    split
    · rfl
    · split
      · exact log_maybe_maxpkt _ u e _
      · exact log_maybe_maxpkt _ u e _

theorem arms_rtsStartDmaTransfer (u : Udc) (e : EpId) (r : ReqId) :
    Arms num [] u (u.rtsStartDmaTransfer e r) := by
  have hlog : (if u.dynamicMaxpktsize then u.rtsUvcQuirks e r else u).log = u.log := by
    split
    · exact log_rtsUvcQuirks u e r
    · rfl
  unfold rtsStartDmaTransfer
  dsimp only
  refine Arms.log_trans ?_ (arms_emit_none rfl _)
  exact hlog

theorem arms_rtsStartIntrTransfer (u : Udc) (e : EpId) (r : ReqId) :
    Arms num [] u (u.rtsStartIntrTransfer e r) := by
  unfold rtsStartIntrTransfer
  dsimp only
  split
  · exact Arms.log_trans rfl (arms_emit_none rfl _)
  · exact Arms.refl u

theorem arms_rtsEpQueueStart (u : Udc) (e : EpId) (r : ReqId) (wasEmpty : Bool) :
    Arms num [] u (u.rtsEpQueueStart e r wasEmpty) := by
  unfold rtsEpQueueStart
  dsimp only
  split
  · split
    · exact arms_rtsStartDmaTransfer u e r
    · split
      · exact arms_rtsStartIntrTransfer u e r
      · exact Arms.refl u
  · exact Arms.refl u

theorem arms_rtsStartEp0Transfer (u : Udc) (e : EpId) (r : ReqId) :
    Arms num [] u (u.rtsStartEp0Transfer e r) := by
  unfold rtsStartEp0Transfer
  split
  · exact Arms.log_trans rfl (arms_emit_none rfl _)
  · exact arms_emit_none rfl _

theorem arms_rtsEpQueueIrq (u : Udc) (e : EpId) (wasEmpty : Bool) :
    Arms num [] u (u.rtsEpQueueIrq e wasEmpty) := by
  unfold rtsEpQueueIrq rtsSetEpIrqEnable
  split
  · split
    · exact arms_emit_none rfl _
    · exact Arms.refl u
  · exact Arms.refl u

theorem arms_rtsEpQueueLink (u : Udc) (r : ReqId) :
    Arms num [.dataStage] u (u.rtsEpQueueLink ep0 r) :=
  Arms.log_trans rfl (arms_emit (.queued ep0 r) _)

theorem rtsEpQueue_arms (r : ReqId) (mapped : Int) (hlen : (u.req r).length ≠ 0) :
    ∃ a v, rtsEpQueue g ep0 r mapped u false = .ret a v false ∧ Arms num [.dataStage] u v := by
  obtain ⟨a, v, hret, hv⟩ := rtsEpQueue_eq g ep0 r mapped [] (.inr hlen)
  have hudc : v = ((⟨u, []⟩ : Machine).epQueue ep0 r).udc := by rw [hv]
  have harms : Arms num [.dataStage] u (u.rtsEpQueueLink ep0 r) := arms_rtsEpQueueLink u r
  refine ⟨a, v, hret, ?_⟩
  rw [hudc]
  unfold Machine.epQueue
  simp only [length_rtsEpQueueLink, hlen, if_false]
  split
  · exact (harms.trans (arms_rtsStartEp0Transfer _ _ _)).trans (arms_rtsEpQueueStart _ _ _ _)
  · exact (harms.trans (arms_rtsEpQueueIrq _ _ _)).trans (arms_rtsEpQueueStart _ _ _ _)

/-! ## The handlers -/

/-- The program comes back with the lock held and has armed `hs`. -/
def Answers (num : EpId → Nat) (hs : List Handshake) (p : Prog Udc Unit) (u : Udc) : Prop :=
  ∃ v, p u true = .ret () v true ∧ Arms num hs u v

theorem answers_getStatus (hdata : getStatusData ctrl u true = .ret true v true)
    (harms : Arms num hs u v) :
    Answers num (.dataStage :: hs) (rtsUsbReqEp0GetStatus g ctrl) u := by
  let w := v.setReq ep0Req fun q => { q with length := 2, zero := false }
  have hlen : (w.req ep0Req).length ≠ 0 := by
    show ((Udc.setReq _ _ _).req ep0Req).length ≠ 0
    rw [setReq_req_self]
    exact of_decide_eq_true rfl
  obtain ⟨a, x, hqueue, hx⟩ :
      ∃ a x, rtsEpQueue g ep0 ep0Req 0 w false = .ret a x false ∧ Arms num [.dataStage] w x :=
    rtsEpQueue_arms ep0Req 0 hlen
  refine ⟨x, ?_, (harms.trans_log (w := w) rfl).trans hx⟩
  unfold rtsUsbReqEp0GetStatus
  rw [bind_ret hdata, if_pos rfl, modify_bind, spinUnlock_bind, bind_ret hqueue]
  rfl

/-- **GET_STATUS** is answered with data, or stalled for a recipient that does not exist; of ep0 it
is both. -/
theorem answers_getStatus_cases (h : recipient ctrl = 2 → InTable ctrl) :
    Answers num [.dataStage] (rtsUsbReqEp0GetStatus g ctrl) u ∧
        ¬ (recipient ctrl = 2 ∧ targetsEp0 ctrl = true) ∨
      Answers num [.stall] (rtsUsbReqEp0GetStatus g ctrl) u ∧ recipient ctrl ≠ 2 ∨
      Answers num [.dataStage, .stall] (rtsUsbReqEp0GetStatus g ctrl) u ∧
        recipient ctrl = 2 ∧ targetsEp0 ctrl = true := by
  by_cases h0 : recipient ctrl = 0
  · refine .inl ⟨answers_getStatus (v := { u with ep0Data := u.devstatus.toUInt16 }) ?_
      (Arms.of_log rfl), ?_⟩
    · unfold getStatusData
      rw [if_pos h0]
      rfl
    · rw [h0]
      exact fun h2 => absurd h2.1 (by decide)
  by_cases h1 : recipient ctrl = 1
  · refine .inl ⟨answers_getStatus (v := { u with ep0Data := 0 }) ?_ (Arms.of_log rfl), ?_⟩
    · unfold getStatusData
      rw [if_neg h0, if_pos h1]
      rfl
    · rw [h1]
      exact fun h2 => absurd h2.1 (by decide)
  by_cases h2 : recipient ctrl = 2
  · obtain ⟨e, he⟩ := exists_targetSlot (h h2)
    cases ht : targetsEp0 ctrl with
    | true =>
      refine .inr (.inr ⟨answers_getStatus ?_ (arms_cxstall u), h2, rfl⟩)
      unfold getStatusData
      rw [if_neg h0, if_neg h1, if_pos h2, ht]
      rfl
    | false =>
      refine .inl ⟨answers_getStatus
        (v := { u with ep0Data := if (u.ep e).stall then 1 else 0 }) ?_ (Arms.of_log rfl), ?_⟩
      · unfold getStatusData
        rw [if_neg h0, if_neg h1, if_pos h2, ht, he]
        rfl
      · exact fun hand => Bool.false_ne_true hand.2
  · refine .inr (.inl ⟨⟨u.rtsSetCxstall, ?_, arms_cxstall u⟩, h2⟩)
    have hdata : getStatusData ctrl u true = .ret false u.rtsSetCxstall true := by
      unfold getStatusData
      rw [if_neg h0, if_neg h1, if_neg h2]
      rfl
    unfold rtsUsbReqEp0GetStatus
    rw [bind_ret hdata]
    rfl

theorem answers_clearFeature (hstd : ctrl.bRequestType &&& 0x60 = 0) (hreq : ctrl.bRequest = 0x01)
    (hin : InTable ctrl) (hclear : ¬ ClearsHalt ctrl u) :
    ∃ h, Answers num [h] (rtsUsbReqEp0ClearFeature ctrl) u := by
  obtain ⟨e, he⟩ := exists_targetSlot hin
  unfold rtsUsbReqEp0ClearFeature
  rw [he]
  dsimp only
  by_cases h01 : recipient ctrl = 0 ∨ recipient ctrl = 1
  · rw [if_pos h01]
    exact ⟨_, _, rfl, arms_cxdone u⟩
  rw [if_neg h01]
  by_cases h2 : recipient ctrl = 2
  · rw [if_pos h2]
    cases ht : targetsEp0 ctrl with
    | true => exact ⟨_, _, rfl, arms_cxdone u⟩
    | false =>
      rw [if_neg Bool.false_ne_true]
      cases hwedged : (u.ep e).wedged with
      | true =>
        refine ⟨_, u.rtsSetCxdone, ?_, arms_cxdone u⟩
        rw [get_bind, hwedged]
        rfl
      | false =>
        cases hstall : (u.ep e).stall with
        | true => exact absurd ⟨hstd, hreq, h2, ht, e, he, hstall, hwedged⟩ hclear
        | false =>
          refine ⟨_, u.rtsSetCxdone, ?_, arms_cxdone u⟩
          rw [get_bind, hwedged, hstall]
          rfl
  · rw [if_neg h2]
    exact ⟨_, _, rfl, arms_cxstall u⟩

theorem arms_rtsSetEpnstall (e : EpId) (hnum : num e = (u.ep e).epnum) :
    Arms num (if num e = 0 then [.stall] else []) u (u.rtsSetEpnstall e) := by
  unfold rtsSetEpnstall
  dsimp only
  by_cases h0 : num e = 0
  · have hbit : hasStallBit (u.ep e) = true := by
      unfold hasStallBit
      rw [← hnum, h0]
      split <;> rfl
    rw [if_pos h0, if_pos hbit]
    refine Arms.log_trans rfl ?_
    have harms : Arms num (Action.handshake num (.epnstall e true)).toList _ _ :=
      arms_emit _ (u.setEp e fun x => { x with stall := true })
    rwa [Action.handshake, if_pos h0] at harms
  · have hnone : Action.handshake num (.epnstall e true) = none := if_neg h0
    rw [if_neg h0]
    split
    · exact Arms.log_trans rfl (arms_emit_none hnone _)
    · exact Arms.of_log rfl

/-- **SET_FEATURE** is acknowledged, or stalled for a recipient that does not exist; of an endpoint
whose number is 0 it is both. -/
theorem answers_setFeature (h : recipient ctrl = 2 → InTable ctrl)
    (hnum : ∀ e, num e = (u.ep e).epnum) :
    (∃ h, Answers num [h] (rtsUsbReqEp0SetFeature ctrl) u ∧ (recipient ctrl = 2 →
        targetsEp0 ctrl = false ∧ ∃ e, targetSlot ctrl = some e ∧ num e ≠ 0)) ∨
      Answers num [.acknowledge, .stall] (rtsUsbReqEp0SetFeature ctrl) u ∧ recipient ctrl = 2 ∧
        ¬ (targetsEp0 ctrl = false ∧ ∃ e, targetSlot ctrl = some e ∧ num e ≠ 0) := by
  unfold rtsUsbReqEp0SetFeature
  by_cases h0 : recipient ctrl = 0
  · have hne : recipient ctrl ≠ 2 := by
      rw [h0]
      decide
    rw [if_pos h0]
    refine .inl ⟨.acknowledge, ?_, fun h2 => absurd h2 hne⟩
    by_cases htest : ctrl.wValue = 2
    · refine ⟨{ u.rtsSetCxdone with testMode := ctrl.wIndex >>> 8, testWork := true }, ?_,
        (arms_cxdone u).trans_log rfl⟩
      rw [modify_bind, if_pos htest]
      rfl
    · refine ⟨u.rtsSetCxdone, ?_, arms_cxdone u⟩
      rw [modify_bind, if_neg htest]
      rfl
  rw [if_neg h0]
  by_cases h1 : recipient ctrl = 1
  · have hne : recipient ctrl ≠ 2 := by
      rw [h1]
      decide
    rw [if_pos h1]
    exact .inl ⟨_, ⟨_, rfl, arms_cxdone u⟩, fun h2 => absurd h2 hne⟩
  rw [if_neg h1]
  by_cases h2 : recipient ctrl = 2
  · rw [if_pos h2]
    obtain ⟨e, he⟩ := exists_targetSlot (h h2)
    cases ht : targetsEp0 ctrl with
    | true =>
      refine .inr ⟨⟨u.rtsSetCxstall.rtsSetCxdone, rfl, ?_⟩, h2, fun hand => ?_⟩
      · exact (arms_cxstall u).trans (arms_cxdone _)
      · exact Bool.false_ne_true hand.1.symm
    | false =>
      have harms := (arms_rtsSetEpnstall e (hnum e)).trans (arms_cxdone (u.rtsSetEpnstall e))
      rw [he]
      by_cases hzero : num e = 0
      · rw [if_pos hzero] at harms
        refine .inr ⟨⟨_, rfl, harms⟩, h2, ?_⟩
        rintro ⟨-, e', he', hne⟩
        rw [← Option.some_inj.mp he'] at hne
        exact hne hzero
      · rw [if_neg hzero] at harms
        exact .inl ⟨_, ⟨_, rfl, harms⟩, fun _ => ⟨rfl, e, rfl, hzero⟩⟩
  · rw [if_neg h2]
    exact .inl ⟨_, ⟨_, rfl, arms_cxstall u⟩, fun hrec => absurd hrec h2⟩

theorem arms_rtsSetDevAddr (addr : UInt16) (u : Udc) :
    Arms num [.acknowledge] u (rtsSetDevAddr addr u) := by
  have hwrite (x : UInt32) (v : Udc) :
      Arms num [] v ({ v with usbAddr := x }.emit (.usbAddr x)) :=
    Arms.log_trans rfl (arms_emit_none rfl _)
  unfold rtsSetDevAddr
  dsimp only
  split
  · exact (arms_cxdone u).trans (hwrite _ _)
  · exact (hwrite _ u).trans (arms_cxdone _)

theorem answers_setAddress : ∃ h, Answers num [h] (rtsUsbReqEp0SetAddress highSpeed ctrl) u := by
  unfold rtsUsbReqEp0SetAddress
  by_cases hbig : ctrl.wValue ≥ 0x100
  · rw [if_pos hbig]
    exact ⟨_, _, rfl, Arms.log_trans rfl (arms_cxstall _)⟩
  · rw [if_neg hbig]
    exact ⟨_, _, rfl, Arms.log_trans rfl (arms_rtsSetDevAddr ctrl.wValue _)⟩

/-! ## The packet -/

/-- The state in which a handler starts: the direction of ep0 is set. -/
def directed (ctrl : SetupPacket) (u : Udc) : Udc :=
  u.setEp ep0 fun x => { x with dirIn := ctrl.bRequestType &&& 0x80 ≠ 0 }

theorem directed_ep (ctrl : SetupPacket) (u : Udc) (e : EpId) :
    ((directed ctrl u).ep e).epnum = (u.ep e).epnum ∧
      ((directed ctrl u).ep e).stall = (u.ep e).stall ∧
      ((directed ctrl u).ep e).wedged = (u.ep e).wedged := by
  unfold directed
  by_cases he : e = ep0
  · subst he
    rw [setEp_ep_self]
    exact ⟨rfl, rfl, rfl⟩
  · rw [setEp_ep_of_ne he]
    exact ⟨rfl, rfl, rfl⟩

theorem clearsHalt_directed : ClearsHalt ctrl (directed ctrl u) ↔ ClearsHalt ctrl u := by
  unfold ClearsHalt
  simp only [directed_ep]

/-- The packet is dispatched to the handler `p`, whose completion makes `rts_usb_setup_process`
return 0. -/
def DispatchesTo (g : Callbacks) (highSpeed : Bool) (ctrl : SetupPacket) (u : Udc)
    (p : Prog Udc Unit) : Prop :=
  rtsUsbSetupProcess g highSpeed ctrl u true =
    (p >>= fun _ => (pure 0 : Prog Udc Int)) (directed ctrl u) true

theorem DispatchesTo.oneHandshake_iff_of_answers {p : Prog Udc Unit}
    (hrun : DispatchesTo g highSpeed ctrl u p)
    (h : Answers (fun e => (u.ep e).epnum) hs p (directed ctrl u)) :
    OneHandshake g highSpeed ctrl u ↔ ∃ h, hs = [h] := by
  obtain ⟨v, hp, harms⟩ := h
  have hall : Arms (fun e => (u.ep e).epnum) hs u v := Arms.log_trans rfl harms
  have hret : rtsUsbSetupProcess g highSpeed ctrl u true = .ret 0 v true := by
    rw [hrun, bind_ret hp]
    rfl
  constructor
  · rintro ⟨ret, v', hs', h, heq, harms', hone⟩
    rw [hret] at heq
    cases heq
    rw [harms'.unique hall] at hone
    exact ⟨h, hone⟩
  · rintro ⟨h, rfl⟩
    exact ⟨0, v, [h], h, hret, hall, rfl⟩

theorem DispatchesTo.oneHandshake {p : Prog Udc Unit} {h : Handshake}
    (hrun : DispatchesTo g highSpeed ctrl u p)
    (hans : Answers (fun e => (u.ep e).epnum) [h] p (directed ctrl u)) :
    OneHandshake g highSpeed ctrl u :=
  (hrun.oneHandshake_iff_of_answers hans).mpr ⟨h, rfl⟩

theorem DispatchesTo.not_oneHandshake_of_two {p : Prog Udc Unit} {h h' : Handshake}
    (hrun : DispatchesTo g highSpeed ctrl u p)
    (hans : Answers (fun e => (u.ep e).epnum) [h, h'] p (directed ctrl u)) :
    ¬ OneHandshake g highSpeed ctrl u := by
  intro hone
  obtain ⟨b, hb⟩ := (hrun.oneHandshake_iff_of_answers hans).mp hone
  exact absurd hb (by simp)

theorem DispatchesTo.not_oneHandshake {p : Prog Udc Unit}
    (hrun : DispatchesTo g highSpeed ctrl u p)
    (h : p (directed ctrl u) true = .fault ∨ p (directed ctrl u) true = .deadlock) :
    ¬ OneHandshake g highSpeed ctrl u := by
  rintro ⟨ret, v, hs, b, heq, -, -⟩
  rw [hrun] at heq
  rcases h with h | h
  · rw [bind_fault h] at heq
    cases heq
  · rw [bind_deadlock h] at heq
    cases heq

theorem oneHandshake_delegated
    (hrun : rtsUsbSetupProcess g highSpeed ctrl u true = .ret 1 (directed ctrl u) true) :
    OneHandshake g highSpeed ctrl u :=
  ⟨1, _, [], .delegated, hrun, Arms.of_log rfl, rfl⟩

theorem epnum_directed (u : Udc) (e : EpId) :
    (fun e => (u.ep e).epnum) e = ((directed ctrl u).ep e).epnum :=
  (directed_ep ctrl u e).1.symm

/-- **GET_STATUS** gets one answer for a recipient in the table that is not ep0. -/
theorem oneHandshake_getStatus_iff
    (hrun : DispatchesTo g highSpeed ctrl u (rtsUsbReqEp0GetStatus g ctrl)) :
    OneHandshake g highSpeed ctrl u ↔
      (recipient ctrl = 2 → InTable ctrl ∧ targetsEp0 ctrl = false) := by
  by_cases hin : recipient ctrl = 2 → InTable ctrl
  · rcases answers_getStatus_cases (g := g) hin with ⟨hans, hnot⟩ | ⟨hans, hrec⟩ |
      ⟨hans, hrec, ht⟩
    · refine iff_of_true (hrun.oneHandshake hans) fun h2 => ⟨hin h2, ?_⟩
      exact Bool.eq_false_iff.mpr fun ht => hnot ⟨h2, ht⟩
    · exact iff_of_true (hrun.oneHandshake hans) fun h2 => absurd h2 hrec
    · refine iff_of_false (hrun.not_oneHandshake_of_two hans) fun h => ?_
      rw [ht] at h
      exact absurd (h hrec).2.symm Bool.false_ne_true
  · obtain ⟨h2, hout⟩ := Classical.not_imp.mp hin
    refine iff_of_false (hrun.not_oneHandshake (.inl ?_)) fun h => hout (h h2).1
    exact rtsUsbReqEp0GetStatus_fault h2 hout

theorem oneHandshake_clearFeature_iff (hstd : ctrl.bRequestType &&& 0x60 = 0)
    (hreq : ctrl.bRequest = 0x01)
    (hrun : DispatchesTo g highSpeed ctrl u (rtsUsbReqEp0ClearFeature ctrl)) :
    OneHandshake g highSpeed ctrl u ↔ InTable ctrl ∧ ¬ ClearsHalt ctrl u := by
  by_cases hin : InTable ctrl
  · by_cases hclear : ClearsHalt ctrl u
    · refine iff_of_false (hrun.not_oneHandshake (.inr ?_)) fun h => h.2 hclear
      exact rtsUsbReqEp0ClearFeature_deadlock (clearsHalt_directed.mpr hclear)
    · obtain ⟨b, hans⟩ : ∃ b, Answers (fun e => (u.ep e).epnum) [b]
          (rtsUsbReqEp0ClearFeature ctrl) (directed ctrl u) :=
        answers_clearFeature hstd hreq hin fun h => hclear (clearsHalt_directed.mp h)
      exact iff_of_true (hrun.oneHandshake hans) ⟨hin, hclear⟩
  · refine iff_of_false (hrun.not_oneHandshake (.inl ?_)) fun h => hin h.1
    exact rtsUsbReqEp0ClearFeature_fault hin

/-- **SET_FEATURE** gets one answer for a recipient that is no endpoint, or is enabled. -/
theorem oneHandshake_setFeature_iff
    (hrun : DispatchesTo g highSpeed ctrl u (rtsUsbReqEp0SetFeature ctrl)) :
    OneHandshake g highSpeed ctrl u ↔
      (recipient ctrl = 2 →
        targetsEp0 ctrl = false ∧ ∃ e, targetSlot ctrl = some e ∧ (u.ep e).epnum ≠ 0) := by
  by_cases hin : recipient ctrl = 2 → InTable ctrl
  · rcases answers_setFeature hin (epnum_directed u) with ⟨b, hans, hrec⟩ | ⟨hans, h2, hnot⟩
    · exact iff_of_true (hrun.oneHandshake hans) hrec
    · exact iff_of_false (hrun.not_oneHandshake_of_two hans) fun h => hnot (h h2)
  · obtain ⟨h2, hout⟩ := Classical.not_imp.mp hin
    refine iff_of_false (hrun.not_oneHandshake (.inl ?_)) fun h => ?_
    · exact rtsUsbReqEp0SetFeature_fault h2 hout
    · obtain ⟨-, e, he, -⟩ := h h2
      rw [targetSlot_eq_none hout] at he
      cases he

theorem rtsUsbSetupProcess_standard (hstd : ctrl.bRequestType &&& 0x60 = 0) :
    rtsUsbSetupProcess g highSpeed ctrl u true =
      rtsUsbEp0StandardRequest g highSpeed ctrl (directed ctrl u) true := by
  unfold rtsUsbSetupProcess
  rw [modify_bind, if_pos hstd]
  rfl

/-- **One handshake.**  In every state, `rts_usb_setup_process` comes back having chosen one answer
to a packet exactly when the packet is answerable there. -/
theorem oneHandshake_iff (g : Callbacks) (highSpeed : Bool) (ctrl : SetupPacket) (u : Udc) :
    OneHandshake g highSpeed ctrl u ↔ Answerable ctrl u := by
  by_cases hstd : ctrl.bRequestType &&& 0x60 = 0
  · have hprocess : rtsUsbSetupProcess g highSpeed ctrl u true =
        rtsUsbEp0StandardRequest g highSpeed ctrl (directed ctrl u) true :=
      rtsUsbSetupProcess_standard hstd
    unfold rtsUsbEp0StandardRequest at hprocess
    unfold Answerable
    rw [forall_prop_of_true hstd]
    by_cases h0 : ctrl.bRequest = 0x00
    · rw [if_pos h0] at hprocess ⊢
      exact oneHandshake_getStatus_iff hprocess
    rw [if_neg h0] at hprocess ⊢
    by_cases h1 : ctrl.bRequest = 0x01
    · rw [if_pos h1] at hprocess ⊢
      exact oneHandshake_clearFeature_iff hstd h1 hprocess
    rw [if_neg h1] at hprocess ⊢
    by_cases h3 : ctrl.bRequest = 0x03
    · rw [if_pos h3] at hprocess ⊢
      exact oneHandshake_setFeature_iff hprocess
    rw [if_neg h3] at hprocess ⊢
    by_cases h5 : ctrl.bRequest = 0x05
    · rw [if_pos h5] at hprocess
      obtain ⟨b, hans⟩ : ∃ b, Answers (fun e => (u.ep e).epnum) [b]
          (rtsUsbReqEp0SetAddress highSpeed ctrl) (directed ctrl u) := answers_setAddress
      exact iff_of_true (DispatchesTo.oneHandshake hprocess hans) trivial
    · rw [if_neg h5] at hprocess
      exact iff_of_true (oneHandshake_delegated hprocess) trivial
  · refine iff_of_true (oneHandshake_delegated ?_) fun h => absurd h hstd
    unfold rtsUsbSetupProcess
    rw [modify_bind, if_neg hstd]
    rfl

def getEp0Status : SetupPacket := ⟨0x82, 0x00, 0, 0, 2⟩

/-- SET_FEATURE(ENDPOINT_HALT) of ep0. -/
def haltEp0 : SetupPacket := ⟨0x02, 0x03, 0, 0, 0⟩

/-- **Two answers.**  GET_STATUS of ep0 stalls it and starts a data stage; SET_FEATURE of ep0 stalls
it and acknowledges. -/
theorem not_oneHandshake_ep0 :
    Answers (fun _ => 0) [.dataStage, .stall] (rtsUsbReqEp0GetStatus noCallbacks getEp0Status)
        addressed ∧
      Answers (fun _ => 0) [.acknowledge, .stall] (rtsUsbReqEp0SetFeature haltEp0) addressed ∧
      ¬ ∀ g highSpeed ctrl u, OneHandshake g highSpeed ctrl u := by
  refine ⟨?_, ⟨_, rfl, (arms_cxstall _).trans (arms_cxdone _)⟩, fun h => ?_⟩
  · exact answers_getStatus rfl (arms_cxstall _)
  · obtain ⟨ret, v, hs, b, hrun, harms, hone⟩ := h noCallbacks true haltEp0 addressed
    have hanswers : Answers (fun _ => 0) [.acknowledge, .stall] (rtsUsbReqEp0SetFeature haltEp0)
        (directed haltEp0 addressed) := ⟨_, rfl, (arms_cxstall _).trans (arms_cxdone _)⟩
    have hdispatch : DispatchesTo noCallbacks true haltEp0 addressed
        (rtsUsbReqEp0SetFeature haltEp0) := rfl
    exact hdispatch.not_oneHandshake_of_two hanswers ⟨ret, v, hs, b, hrun, harms, hone⟩

end RealtekIpcam.Udc
