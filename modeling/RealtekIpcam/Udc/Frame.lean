import RealtekIpcam.Lib.Ledger
import RealtekIpcam.Udc.Machine

/-!
# What the operations leave alone

Most operations of the driver touch little: an interrupt enable bit, a request's counters, the
packet size of an endpoint.  Each property of the driver is about a few fields, and what its proof
needs of such an operation is only that these fields stay.  Three relations say this, from weak to
strong, and every operation gets the strongest one it satisfies.

* `Calm u v`: the queues, the count of pending requests and the ledger of queueings and completions
  are those of `u`.
* `Silent u v`: so are number, channel and enable flag of every endpoint, the pending flush works,
  and all *loud* actions of the log: those that put data of a request on the wire, take it off, or
  queue it or give it back.
* `Quiet u v`: so are also the halt state and the direction of every endpoint, the transfers on the
  hardware channels, and the starts in the log.
-/

namespace RealtekIpcam
namespace Udc

/-! ## The views -/

def Action.entry : Action → Option (Ledger.Entry EpId ReqId)
  | .queued e r => some (.submit e r)
  | .giveback e r _ => some (.complete e r)
  | _ => none

/-- The queueings and completions of a log. -/
def ledger (log : List Action) : List (Ledger.Entry EpId ReqId) := log.filterMap Action.entry

/-- The actions that move data of a request, or queue it or give it back. -/
def Action.loud : Action → Bool
  | .setup _ => true
  | .queued _ _ => true
  | .giveback _ _ _ => true
  | .ep0In _ _ _ => true
  | .ep0Advance _ => true
  | .xferDone _ => true
  | _ => false

def loudLog (log : List Action) : List Action := log.filter Action.loud

/-- The actions that start a transfer on a channel. -/
def Action.isStart : Action → Bool
  | .startDma _ _ _ => true
  | .startIntr _ _ _ _ => true
  | _ => false

/-- The loud actions and the starts. -/
def xferLog (log : List Action) : List Action := log.filter fun a => a.loud || a.isStart

theorem loudLog_xferLog (log : List Action) : loudLog (xferLog log) = loudLog log := by
  unfold loudLog xferLog
  rw [List.filter_filter]
  refine List.filter_congr fun a _ => ?_
  cases a.loud <;> rfl

theorem loudLog_congr {log log' : List Action} (h : xferLog log = xferLog log') :
    loudLog log = loudLog log' := by
  rw [← loudLog_xferLog log, h, loudLog_xferLog]

/-- An endpoint reduced to its queue and identity. -/
def Endpoint.base (x : Endpoint) : Endpoint :=
  { queue := x.queue, epEnable := x.epEnable, epnum := x.epnum, mcnum := x.mcnum }

/-- An endpoint reduced to its queue, identity, halt state and direction. -/
def Endpoint.core (x : Endpoint) : Endpoint :=
  { queue := x.queue, epEnable := x.epEnable, epnum := x.epnum, mcnum := x.mcnum
    stall := x.stall, stopped := x.stopped, dirIn := x.dirIn, dirOut := x.dirOut }

theorem Endpoint.base_core (x : Endpoint) : x.core.base = x.base := rfl

theorem Endpoint.identity_of_core {x y : Endpoint} (h : x.core = y.core) :
    x.epnum = y.epnum ∧ x.mcnum = y.mcnum ∧ x.epEnable = y.epEnable := by
  have hnum := congrArg Endpoint.epnum h
  have hmc := congrArg Endpoint.mcnum h
  have hen := congrArg Endpoint.epEnable h
  exact ⟨hnum, hmc, hen⟩

theorem loud_of_entry {a : Action} (h : a.entry ≠ none) : a.loud = true := by
  cases a with
  | queued e r => rfl
  | giveback e r s => rfl
  | _ => exact absurd rfl h

theorem ledger_loudLog (log : List Action) : ledger (loudLog log) = ledger log := by
  induction log with
  | nil => rfl
  | cons a log ih =>
    by_cases h : a.loud = true
    · unfold loudLog at ih ⊢
      rw [List.filter_cons_of_pos h]
      unfold ledger at ih ⊢
      rw [List.filterMap_cons, List.filterMap_cons, ih]
    · have hentry : a.entry = none := by
        by_contra hne
        exact h (loud_of_entry hne)
      unfold loudLog at ih ⊢
      rw [List.filter_cons_of_neg h, ih]
      unfold ledger
      rw [List.filterMap_cons, hentry]

/-! ## The relations -/

/-- Queues, pending count and ledger stay. -/
structure Calm (u v : Udc) : Prop where
  queue : ∀ e, (v.ep e).queue = (u.ep e).queue
  pending : v.requestPending = u.requestPending
  ledger : ledger v.log = ledger u.log

/-- Identity of the endpoints, pending count, flush works and loud actions stay. -/
structure Silent (u v : Udc) : Prop where
  base : ∀ e, (v.ep e).base = (u.ep e).base
  pending : v.requestPending = u.requestPending
  doneWork : v.doneWork = u.doneWork
  log : loudLog v.log = loudLog u.log

/-- Everything that a transfer depends on stays. -/
structure Quiet (u v : Udc) : Prop where
  core : ∀ e, (v.ep e).core = (u.ep e).core
  pending : v.requestPending = u.requestPending
  doneWork : v.doneWork = u.doneWork
  log : xferLog v.log = xferLog u.log
  started : v.started = u.started
  busy : v.busy = u.busy
  xferWork : v.xferWork = u.xferWork

variable {u v w : Udc}

theorem Silent.queue (h : Silent u v) (e : EpId) : (v.ep e).queue = (u.ep e).queue := by
  show (v.ep e).base.queue = (u.ep e).base.queue
  rw [h.base e]

theorem Silent.epnum (h : Silent u v) (e : EpId) : (v.ep e).epnum = (u.ep e).epnum := by
  show (v.ep e).base.epnum = (u.ep e).base.epnum
  rw [h.base e]

theorem Silent.mcnum (h : Silent u v) (e : EpId) : (v.ep e).mcnum = (u.ep e).mcnum := by
  show (v.ep e).base.mcnum = (u.ep e).base.mcnum
  rw [h.base e]

theorem Silent.epEnable (h : Silent u v) (e : EpId) : (v.ep e).epEnable = (u.ep e).epEnable := by
  show (v.ep e).base.epEnable = (u.ep e).base.epEnable
  rw [h.base e]

theorem Quiet.silent (h : Quiet u v) : Silent u v where
  base e := by rw [← Endpoint.base_core (v.ep e), h.core e, Endpoint.base_core]
  pending := h.pending
  doneWork := h.doneWork
  log := loudLog_congr h.log

theorem Silent.calm (h : Silent u v) : Calm u v where
  queue := h.queue
  pending := h.pending
  ledger := by rw [← ledger_loudLog v.log, h.log, ledger_loudLog]

theorem Quiet.calm (h : Quiet u v) : Calm u v := h.silent.calm

theorem Calm.refl (u : Udc) : Calm u u := ⟨fun _ => rfl, rfl, rfl⟩

theorem Silent.refl (u : Udc) : Silent u u := ⟨fun _ => rfl, rfl, rfl, rfl⟩

theorem Quiet.refl (u : Udc) : Quiet u u := ⟨fun _ => rfl, rfl, rfl, rfl, rfl, rfl, rfl⟩

theorem Calm.trans (h : Calm u v) (k : Calm v w) : Calm u w where
  queue e := (k.queue e).trans (h.queue e)
  pending := k.pending.trans h.pending
  ledger := k.ledger.trans h.ledger

theorem Silent.trans (h : Silent u v) (k : Silent v w) : Silent u w where
  base e := (k.base e).trans (h.base e)
  pending := k.pending.trans h.pending
  doneWork := k.doneWork.trans h.doneWork
  log := k.log.trans h.log

theorem Quiet.trans (h : Quiet u v) (k : Quiet v w) : Quiet u w where
  core e := (k.core e).trans (h.core e)
  pending := k.pending.trans h.pending
  doneWork := k.doneWork.trans h.doneWork
  log := k.log.trans h.log
  started := k.started.trans h.started
  busy := k.busy.trans h.busy
  xferWork := k.xferWork.trans h.xferWork

theorem Calm.ite {c : Prop} [Decidable c] (h : Calm u v) (k : Calm u w) :
    Calm u (if c then v else w) := by
  split
  · exact h
  · exact k

theorem Silent.ite {c : Prop} [Decidable c] (h : Silent u v) (k : Silent u w) :
    Silent u (if c then v else w) := by
  split
  · exact h
  · exact k

theorem Quiet.ite {c : Prop} [Decidable c] (h : Quiet u v) (k : Quiet u w) :
    Quiet u (if c then v else w) := by
  split
  · exact h
  · exact k

/-! ## Primitive updates -/

theorem setEp_apply {α : Type*} {p : Endpoint → α} {f : Endpoint → Endpoint}
    (hf : ∀ x, p (f x) = p x) (u : Udc) (e e' : EpId) :
    p ((u.setEp e f).ep e') = p (u.ep e') := by
  rw [setEp_ep]
  split
  · next h => rw [h, hf]
  · rfl

theorem calm_setEp {f : Endpoint → Endpoint} (hf : ∀ x, (f x).queue = x.queue) (u : Udc)
    (e : EpId) : Calm u (u.setEp e f) :=
  ⟨fun e' => setEp_apply (p := Endpoint.queue) hf u e e', rfl, rfl⟩

theorem silent_setEp {f : Endpoint → Endpoint} (hf : ∀ x, (f x).base = x.base) (u : Udc)
    (e : EpId) : Silent u (u.setEp e f) :=
  ⟨fun e' => setEp_apply hf u e e', rfl, rfl, rfl⟩

theorem quiet_setEp {f : Endpoint → Endpoint} (hf : ∀ x, (f x).core = x.core) (u : Udc)
    (e : EpId) : Quiet u (u.setEp e f) :=
  ⟨fun e' => setEp_apply hf u e e', rfl, rfl, rfl, rfl, rfl, rfl⟩

theorem quiet_setReq (u : Udc) (r : ReqId) (f : Request → Request) : Quiet u (u.setReq r f) :=
  ⟨fun _ => rfl, rfl, rfl, rfl, rfl, rfl, rfl⟩

theorem loudLog_cons_of_not_loud {a : Action} (h : a.loud = false) (log : List Action) :
    loudLog (a :: log) = loudLog log :=
  List.filter_cons_of_neg (by rw [h]; exact nofun)

theorem silent_emit {a : Action} (h : a.loud = false) (u : Udc) : Silent u (u.emit a) :=
  ⟨fun _ => rfl, rfl, rfl, loudLog_cons_of_not_loud h u.log⟩

theorem quiet_emit {a : Action} (h : (a.loud || a.isStart) = false) (u : Udc) :
    Quiet u (u.emit a) :=
  ⟨fun _ => rfl, rfl, rfl, List.filter_cons_of_neg (by rw [h]; exact nofun), rfl, rfl,
    rfl⟩

theorem calm_emit {a : Action} (h : a.entry = none) (u : Udc) : Calm u (u.emit a) := by
  refine ⟨fun _ => rfl, rfl, ?_⟩
  show ledger (a :: u.log) = ledger u.log
  unfold ledger
  rw [List.filterMap_cons, h]

theorem silent_startXfer (u : Udc) (c : Chan) (r : ReqId) : Silent u (u.startXfer c r) :=
  ⟨fun _ => rfl, rfl, rfl, rfl⟩

theorem calm_finishXfer (u : Udc) (c : Chan) (r : ReqId) : Calm u (u.finishXfer c r) := by
  have h : Calm u { u with busy := Function.update u.busy c (u.busy c).tail } :=
    ⟨fun _ => rfl, rfl, rfl⟩
  exact h.trans (calm_emit (a := .xferDone r) rfl _)

/-! ## Operations without effect on transfers -/

variable (u) (e : EpId) (r : ReqId)

theorem quiet_rtsSetCxstall : Quiet u u.rtsSetCxstall := quiet_emit rfl u

theorem quiet_rtsSetCxdone : Quiet u u.rtsSetCxdone := quiet_emit rfl u

theorem quiet_rtsSetEpIrqEnable : Quiet u (u.rtsSetEpIrqEnable e) := by
  unfold rtsSetEpIrqEnable
  split
  · exact quiet_emit rfl u
  · exact Quiet.refl u

theorem quiet_rtsSetEpIrqDisable : Quiet u (u.rtsSetEpIrqDisable e) := by
  unfold rtsSetEpIrqDisable
  split
  · exact quiet_emit rfl u
  · exact Quiet.refl u

theorem quiet_rtsSetEpMaxpkt (n : UInt16) : Quiet u (u.rtsSetEpMaxpkt e n) := by
  unfold rtsSetEpMaxpkt
  exact quiet_setEp (fun _ => by rfl) u e

theorem quiet_rtsUvcQuirks : Quiet u (u.rtsUvcQuirks e r) := by
  unfold rtsUvcQuirks
  dsimp only
  split
  · exact Quiet.refl u
  · split
    · exact Quiet.refl u
    · exact (Quiet.ite (quiet_rtsSetEpMaxpkt u e _) (Quiet.refl u)).trans
        (quiet_setEp (fun _ => by rfl) _ e)

theorem quiet_stepUacCnt : Quiet u (u.setEp e stepUacCnt) := by
  refine quiet_setEp (fun x => ?_) u e
  unfold stepUacCnt
  split <;> rfl

theorem quiet_intrAdvance : Quiet u (u.intrAdvance e r) := by
  unfold intrAdvance
  dsimp only
  split
  · exact quiet_setReq u r _
  · exact Quiet.refl u

theorem quiet_rtsTransferComplete (n : UInt32) : Quiet u (u.rtsTransferComplete e r n) :=
  quiet_setReq u r _

theorem quiet_rtsInComplete : Quiet u (u.rtsInComplete e r) := by
  unfold rtsInComplete
  split
  · exact quiet_rtsTransferComplete u e r 0
  · exact Quiet.refl u

theorem quiet_rtsDoneQuiesce : Quiet u (u.rtsDoneQuiesce e) := by
  unfold rtsDoneQuiesce
  split
  · exact quiet_rtsSetEpIrqDisable u e
  · exact Quiet.refl u

theorem quiet_rtsEpQueueIrq (wasEmpty : Bool) : Quiet u (u.rtsEpQueueIrq e wasEmpty) := by
  unfold rtsEpQueueIrq
  split
  · exact quiet_rtsSetEpIrqEnable u e
  · exact Quiet.refl u

/-- What `rts_start_dma_transfer` does before it starts the transfer. -/
def dmaPrepare : Udc :=
  (if u.dynamicMaxpktsize then u.rtsUvcQuirks e r else u).setEp e stepUacCnt

theorem quiet_dmaPrepare : Quiet u (u.dmaPrepare e r) := by
  refine Quiet.trans ?_ (quiet_stepUacCnt _ e)
  split
  · exact quiet_rtsUvcQuirks u e r
  · exact Quiet.refl u

/-! ## Operations that start transfers or change the halt state -/

theorem silent_rtsStartDmaTransfer : Silent u (u.rtsStartDmaTransfer e r) :=
  ((quiet_dmaPrepare u e r).silent.trans (silent_startXfer _ _ r)).trans (silent_emit rfl _)

theorem silent_rtsStartIntrTransfer : Silent u (u.rtsStartIntrTransfer e r) := by
  unfold rtsStartIntrTransfer
  dsimp only
  split
  · exact ((quiet_setReq u r _).silent.trans (silent_startXfer _ _ r)).trans (silent_emit rfl _)
  · exact Silent.refl u

theorem silent_rtsStartNextRequest : Silent u (u.rtsStartNextRequest e) := by
  unfold rtsStartNextRequest
  cases (u.ep e).queue with
  | nil => exact Silent.refl u
  | cons r rest =>
    dsimp only
    split
    · exact silent_rtsStartIntrTransfer u e r
    · exact silent_rtsStartDmaTransfer u e r

theorem silent_rtsEpQueueStart (wasEmpty : Bool) : Silent u (u.rtsEpQueueStart e r wasEmpty) := by
  unfold rtsEpQueueStart
  dsimp only
  split
  · split
    · exact silent_rtsStartDmaTransfer u e r
    · split
      · exact silent_rtsStartIntrTransfer u e r
      · exact Silent.refl u
  · exact Silent.refl u

theorem silent_rtsSetEpnstall : Silent u (u.rtsSetEpnstall e) := by
  unfold rtsSetEpnstall
  dsimp only
  split
  · exact (silent_setEp (fun _ => by rfl) u e).trans (quiet_emit rfl _).silent
  · exact silent_setEp (fun _ => by rfl) u e

theorem silent_rtsClearEpnstall : Silent u (u.rtsClearEpnstall e) := by
  unfold rtsClearEpnstall
  dsimp only
  split
  · exact (silent_setEp (fun _ => by rfl) u e).trans (quiet_emit rfl _).silent
  · exact silent_setEp (fun _ => by rfl) u e

theorem silent_setHaltAndWedge (value wedge : Bool) :
    Silent u (u.setHaltAndWedge e value wedge) := by
  unfold setHaltAndWedge
  split
  · exact (silent_rtsSetEpnstall u e).trans (silent_setEp (fun _ => by rfl) _ e)
  · dsimp only
    have h := (silent_rtsClearEpnstall u e).trans
      (silent_setEp (f := fun x => { x with stall := false, wedged := false, stopped := false })
        (fun _ => rfl) (u.rtsClearEpnstall e) e)
    split
    · exact h.trans (quiet_rtsSetEpIrqEnable _ e).silent
    · exact h

theorem silent_queueXferWork : Silent u (queueXferWork e u) := ⟨fun _ => rfl, rfl, rfl, rfl⟩

theorem silent_takeXferWork : Silent u (u.takeXferWork e) := ⟨fun _ => rfl, rfl, rfl, rfl⟩

theorem calm_takeDoneWork : Calm u (u.takeDoneWork e) := ⟨fun _ => rfl, rfl, rfl⟩

theorem calm_readSetup (ctrl : SetupPacket) : Calm u (u.readSetup ctrl) :=
  Calm.trans (v := { u with setupBuf := ctrl }) ⟨fun _ => rfl, rfl, rfl⟩
    (calm_emit (a := .setup ctrl) rfl _)

theorem calm_rtsStartEp0Transfer : Calm u (u.rtsStartEp0Transfer e r) := by
  unfold rtsStartEp0Transfer
  dsimp only
  split
  · exact (quiet_setReq u r _).calm.trans (calm_emit rfl _)
  · exact (quiet_emit rfl u).calm

theorem calm_ep0Advance : Calm u (u.ep0Advance e r) := by
  unfold ep0Advance
  dsimp only
  split
  · exact (quiet_setReq u r _).calm.trans (calm_emit rfl _)
  · exact Calm.refl u

/-- The request is given back with the status that `rts_done` chooses, after it is unlinked and
nothing else that matters is done. -/
def GivesBack (status : Int) (u v : Udc) : Prop :=
  ∃ w, Quiet (u.rtsDoneUnlink e r status) w ∧ v = w.emit (.giveback e r (u.doneStatus status))

theorem givesBack_rtsDoneEnter (status : Int) :
    GivesBack e r status u (u.rtsDoneEnter e r status) := by
  refine ⟨_, ?_, rfl⟩
  exact Quiet.ite (quiet_rtsDoneQuiesce _ e) <| Quiet.ite (quiet_rtsSetCxdone _) <|
    Quiet.ite (quiet_rtsSetCxstall _) (quiet_rtsSetCxdone _)

theorem givesBack_rtsDoneWqEnter (status : Int) :
    GivesBack e r status u (u.rtsDoneWqEnter e r status) :=
  ⟨_, quiet_rtsDoneQuiesce _ e, rfl⟩

/-! ## Operations that enable and disable -/

theorem calm_rtsSetEpEnable : Calm u (u.rtsSetEpEnable e) := by
  unfold rtsSetEpEnable
  dsimp only
  refine Calm.trans ?_ (quiet_emit rfl _).calm
  have h := (calm_setEp (f := fun x => { x with epEnable := true }) (fun _ => rfl) u e).trans
    (silent_rtsClearEpnstall (u.setEp e fun x => { x with epEnable := true }) e).calm
  generalize (u.setEp e fun x => { x with epEnable := true }).rtsClearEpnstall e = v at h ⊢
  have hdis : Calm u (if hasFifo (v.ep e) then v.emit (.mcDisable (v.ep e).mcnum) else v) :=
    Calm.ite (h.trans (quiet_emit rfl v).calm) h
  exact Calm.ite (hdis.trans (calm_setEp (fun _ => by rfl) _ e)) hdis

theorem calm_rtsSetEpFifoMapping : Calm u (u.rtsSetEpFifoMapping e).2 := by
  have h := calm_setEp (f := fun x => { x with mcnum := (fifoOf (u.ep e)).1 }) (fun _ => rfl) u e
  unfold rtsSetEpFifoMapping
  dsimp only
  split
  · exact h
  · exact h.trans ⟨fun _ => rfl, rfl, rfl⟩

theorem calm_rtsConfigEp (desc : EpDesc) : Calm u (u.rtsConfigEp e desc).2 := by
  unfold rtsConfigEp
  have hpkt : Calm u (u.rtsSetEpMaxpkt e 0) := (quiet_rtsSetEpMaxpkt u e 0).calm
  have hmap : Calm u (if usesDma ((u.rtsSetEpMaxpkt e 0).ep e) then
      (u.rtsSetEpMaxpkt e 0).rtsSetEpFifoMapping e else (0, u.rtsSetEpMaxpkt e 0)).2 := by
    split
    · exact hpkt.trans (calm_rtsSetEpFifoMapping _ e)
    · exact hpkt
  dsimp only
  generalize (if usesDma ((u.rtsSetEpMaxpkt e 0).ep e) then
    (u.rtsSetEpMaxpkt e 0).rtsSetEpFifoMapping e else (0, u.rtsSetEpMaxpkt e 0)) = p at hmap ⊢
  split
  · exact hmap
  · exact (Calm.ite (hmap.trans (calm_setEp (fun _ => by rfl) _ e)) hmap).trans
      (calm_rtsSetEpEnable _ e)

theorem calm_rtsEpEnable (desc : EpDesc) : Calm u (u.rtsEpEnable e desc).2 := by
  unfold rtsEpEnable
  have h := calm_setEp (f := fun x => { x with desc := some desc, epnum := usbEndpointNum desc })
    (fun _ => rfl) u e
  dsimp only
  split
  · exact h
  · exact (h.trans (calm_setEp (fun _ => by rfl) _ e)).trans (calm_rtsConfigEp _ e desc)

theorem calm_rtsEpDisableBegin : Calm u (u.rtsEpDisableBegin e) := by
  have hoff : Calm u (u.rtsSetEpDisable e) := by
    unfold rtsSetEpDisable
    have h := calm_setEp (f := fun x => { x with epEnable := false }) (fun _ => rfl) u e
    dsimp only
    split
    · exact (h.trans (quiet_emit rfl _).calm).trans (quiet_emit rfl _).calm
    · exact h.trans (quiet_emit rfl _).calm
  have hrel : Calm u ((u.rtsSetEpDisable e).releaseMcm e) :=
    hoff.trans ⟨fun _ => rfl, rfl, rfl⟩
  unfold rtsEpDisableBegin
  dsimp only
  split
  · exact hrel.trans ⟨fun _ => rfl, rfl, rfl⟩
  · exact hrel

theorem calm_clearEp : Calm u (u.clearEp e) := calm_setEp (fun _ => by rfl) u e

end Udc

namespace Machine

open Udc

/-- The step enters the completion callback of `r`: it is given back, and the call that does so
waits with the saved value of `stopped`. -/
def Enters (m : Machine) (e : EpId) (r : ReqId) (status : Int) (k : Cont) (n : Machine) : Prop :=
  ∃ v, GivesBack e r status m.udc v ∧ n = ⟨v, .giveback e r (m.udc.ep e).stopped k :: m.tasks⟩

theorem enters_enterDone (m : Machine) (e : EpId) (r : ReqId) (status : Int) (k : Cont) :
    m.Enters e r status k (m.enterDone e r status k) :=
  ⟨_, givesBack_rtsDoneEnter m.udc e r status, rfl⟩

theorem enters_enterDoneWq (m : Machine) (e : EpId) (r : ReqId) (status : Int) (k : Cont) :
    m.Enters e r status k (m.enterDoneWq e r status k) :=
  ⟨_, givesBack_rtsDoneWqEnter m.udc e r status, rfl⟩

end Machine
end RealtekIpcam
