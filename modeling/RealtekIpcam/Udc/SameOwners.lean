import RealtekIpcam.Udc.Setup

/-!
# What leaves the FIFO channels alone

The table `mcm` says which endpoint has claimed a FIFO channel, and an endpoint is matched with its
entry by number and direction.  `SameOwners u v` says that an operation leaves the table and the
identities of the endpoints alone.  Everything does but enabling, disabling and flushing: the
transfers, the halts, the completions and the requests on ep0.
-/

namespace RealtekIpcam.Udc

open LockLogic

/-- An endpoint reduced to its enable flag, number, channel and direction. -/
def Endpoint.ident (x : Endpoint) : Endpoint :=
  { epEnable := x.epEnable, epnum := x.epnum, mcnum := x.mcnum
    dirIn := x.dirIn, dirOut := x.dirOut }

theorem Endpoint.core_ident (x : Endpoint) : x.core.ident = x.ident := rfl

/-- The claims, the identities of the endpoints and the pending flushes stay.  A SETUP packet sets
the direction of ep0, which has no channel. -/
structure SameOwners (u v : Udc) : Prop where
  ident : ∀ e, e ≠ ep0 → (v.ep e).ident = (u.ep e).ident
  base : ∀ e, (v.ep e).ident.base = (u.ep e).ident.base
  mcm : v.mcm = u.mcm
  doneWork : v.doneWork = u.doneWork

variable {u v w : Udc} {e : EpId} {r : ReqId}

theorem SameOwners.refl (u : Udc) : SameOwners u u := ⟨fun _ _ => rfl, fun _ => rfl, rfl, rfl⟩

theorem SameOwners.trans (h : SameOwners u v) (k : SameOwners v w) : SameOwners u w where
  ident e he := (k.ident e he).trans (h.ident e he)
  base e := (k.base e).trans (h.base e)
  mcm := k.mcm.trans h.mcm
  doneWork := k.doneWork.trans h.doneWork

theorem SameOwners.ite {c : Prop} [Decidable c] (h : SameOwners u v) (k : SameOwners u w) :
    SameOwners u (if c then v else w) := by
  split
  · exact h
  · exact k

/-! ## What leaves the owners alone -/

theorem sameOwners_of_ep (hep : v.ep = u.ep) (hmcm : v.mcm = u.mcm)
    (hwork : v.doneWork = u.doneWork) : SameOwners u v :=
  ⟨fun e _ => by rw [hep], fun e => by rw [hep], hmcm, hwork⟩

theorem sameOwners_emit (a : Action) (u : Udc) : SameOwners u (u.emit a) :=
  sameOwners_of_ep rfl rfl rfl

theorem sameOwners_setReq (r : ReqId) (f : Request → Request) (u : Udc) :
    SameOwners u (u.setReq r f) :=
  sameOwners_of_ep rfl rfl rfl

theorem sameOwners_setEp {f : Endpoint → Endpoint} (hf : ∀ x, (f x).ident = x.ident) (u : Udc)
    (e : EpId) : SameOwners u (u.setEp e f) :=
  ⟨fun e' _ => setEp_apply hf u e e', fun e' => congrArg Endpoint.base (setEp_apply hf u e e'),
    rfl, rfl⟩

theorem sameOwners_setEp0 {f : Endpoint → Endpoint}
    (hf : ∀ x, (f x).ident.base = x.ident.base) (u : Udc) : SameOwners u (u.setEp ep0 f) :=
  ⟨fun e he => by rw [setEp_ep_of_ne he],
    fun e => setEp_apply (p := fun x => x.ident.base) hf u ep0 e, rfl, rfl⟩

theorem sameOwners_rtsSetEpMaxpkt (n : UInt16) (u : Udc) (e : EpId) :
    SameOwners u (u.rtsSetEpMaxpkt e n) := by
  unfold rtsSetEpMaxpkt
  exact sameOwners_setEp (fun _ => by rfl) u e

theorem sameOwners_rtsUvcQuirks (u : Udc) (e : EpId) (r : ReqId) :
    SameOwners u (u.rtsUvcQuirks e r) := by
  unfold rtsUvcQuirks
  dsimp only
  split
  · exact .refl u
  · split
    · exact .refl u
    · exact (SameOwners.ite (sameOwners_rtsSetEpMaxpkt _ u e) (.refl u)).trans
        (sameOwners_setEp (fun _ => by rfl) _ e)

theorem sameOwners_stepUacCnt (u : Udc) (e : EpId) : SameOwners u (u.setEp e stepUacCnt) := by
  refine sameOwners_setEp (fun x => ?_) u e
  unfold stepUacCnt
  split <;> rfl

theorem sameOwners_rtsStartDmaTransfer (u : Udc) (e : EpId) (r : ReqId) :
    SameOwners u (u.rtsStartDmaTransfer e r) := by
  have hquirk := SameOwners.ite (c := u.dynamicMaxpktsize) (sameOwners_rtsUvcQuirks u e r)
    (.refl u)
  exact (hquirk.trans (sameOwners_stepUacCnt _ e)).trans (sameOwners_of_ep rfl rfl rfl)

theorem sameOwners_rtsStartIntrTransfer (u : Udc) (e : EpId) (r : ReqId) :
    SameOwners u (u.rtsStartIntrTransfer e r) := by
  unfold rtsStartIntrTransfer
  exact .ite (sameOwners_of_ep rfl rfl rfl) (.refl u)

theorem sameOwners_rtsStartNextRequest (u : Udc) (e : EpId) :
    SameOwners u (u.rtsStartNextRequest e) := by
  unfold rtsStartNextRequest
  cases (u.ep e).queue with
  | nil => exact .refl u
  | cons r rest =>
    exact .ite (sameOwners_rtsStartIntrTransfer u e r)
      (sameOwners_rtsStartDmaTransfer u e r)

theorem sameOwners_rtsEpQueueStart (u : Udc) (e : EpId) (r : ReqId) (wasEmpty : Bool) :
    SameOwners u (u.rtsEpQueueStart e r wasEmpty) := by
  unfold rtsEpQueueStart
  exact .ite (.ite (sameOwners_rtsStartDmaTransfer u e r)
    (.ite (sameOwners_rtsStartIntrTransfer u e r) (.refl u)))
    (.refl u)

theorem sameOwners_rtsSetEpIrqEnable (u : Udc) (e : EpId) :
    SameOwners u (u.rtsSetEpIrqEnable e) := by
  unfold rtsSetEpIrqEnable
  exact .ite (sameOwners_emit _ u) (.refl u)

theorem sameOwners_rtsEpQueueIrq (u : Udc) (e : EpId) (wasEmpty : Bool) :
    SameOwners u (u.rtsEpQueueIrq e wasEmpty) := by
  unfold rtsEpQueueIrq
  exact .ite (sameOwners_rtsSetEpIrqEnable u e) (.refl u)

theorem sameOwners_rtsEpQueueLink (u : Udc) (e : EpId) (r : ReqId) :
    SameOwners u (u.rtsEpQueueLink e r) :=
  (sameOwners_setEp (f := fun x => { x with queue := x.queue ++ [r] }) (fun _ => rfl) u e).trans
    (sameOwners_of_ep rfl rfl rfl)

theorem sameOwners_rtsSetEpnstall (u : Udc) (e : EpId) : SameOwners u (u.rtsSetEpnstall e) := by
  have h := sameOwners_setEp (f := fun x => { x with stall := true }) (fun _ => rfl) u e
  unfold rtsSetEpnstall
  exact .ite (h.trans (sameOwners_emit _ _)) h

theorem sameOwners_rtsClearEpnstall (u : Udc) (e : EpId) :
    SameOwners u (u.rtsClearEpnstall e) := by
  have h := sameOwners_setEp (f := fun x => { x with stall := false }) (fun _ => rfl) u e
  unfold rtsClearEpnstall
  exact .ite (h.trans (sameOwners_emit _ _)) h

theorem sameOwners_setHaltAndWedge (u : Udc) (e : EpId) (value wedge : Bool) :
    SameOwners u (u.setHaltAndWedge e value wedge) := by
  have hclear : SameOwners u ((u.rtsClearEpnstall e).setEp e fun x =>
      { x with stall := false, wedged := false, stopped := false }) :=
    (sameOwners_rtsClearEpnstall u e).trans (sameOwners_setEp (fun _ => by rfl) _ e)
  unfold setHaltAndWedge
  refine .ite ?_ ?_
  · exact (sameOwners_rtsSetEpnstall u e).trans (sameOwners_setEp (fun _ => by rfl) _ e)
  · exact .ite (hclear.trans (sameOwners_rtsSetEpIrqEnable _ e)) hclear

theorem sameOwners_rtsStartEp0Transfer (u : Udc) (e : EpId) (r : ReqId) :
    SameOwners u (u.rtsStartEp0Transfer e r) := by
  unfold rtsStartEp0Transfer
  exact .ite (sameOwners_of_ep rfl rfl rfl) (sameOwners_emit _ u)

theorem sameOwners_ep0Advance (u : Udc) (e : EpId) (r : ReqId) :
    SameOwners u (u.ep0Advance e r) := by
  unfold ep0Advance
  exact .ite (sameOwners_of_ep rfl rfl rfl) (.refl u)

theorem sameOwners_intrAdvance (u : Udc) (e : EpId) (r : ReqId) :
    SameOwners u (u.intrAdvance e r) := by
  unfold intrAdvance
  exact .ite (sameOwners_setReq r _ u) (.refl u)

theorem sameOwners_rtsInComplete (u : Udc) (e : EpId) (r : ReqId) :
    SameOwners u (u.rtsInComplete e r) := by
  unfold rtsInComplete
  exact .ite (sameOwners_setReq r _ u) (.refl u)

/-! ## Giving back -/

theorem sameOwners_rtsDoneUnlink (u : Udc) (e : EpId) (r : ReqId) (status : Int) :
    SameOwners u (u.rtsDoneUnlink e r status) := by
  have hdel : SameOwners u (u.listDelInit r) := ⟨fun _ _ => rfl, fun _ => rfl, rfl, rfl⟩
  exact (hdel.trans (sameOwners_setEp (f := fun x => { x with stopped := true }) (fun _ => rfl)
    _ e)).trans (sameOwners_of_ep rfl rfl rfl)

theorem sameOwners_rtsDoneQuiesce (u : Udc) (e : EpId) :
    SameOwners u (u.rtsDoneQuiesce e) := by
  have hirq : SameOwners u (u.rtsSetEpIrqDisable e) := by
    unfold rtsSetEpIrqDisable
    exact .ite (sameOwners_emit _ u) (.refl u)
  unfold rtsDoneQuiesce
  exact .ite hirq (.refl u)

theorem sameOwners_rtsDoneEnter (u : Udc) (e : EpId) (r : ReqId) (status : Int) :
    SameOwners u (u.rtsDoneEnter e r status) := by
  have hmid := SameOwners.ite (c := ((u.rtsDoneUnlink e r status).ep e).epnum ≠ 0)
    (sameOwners_rtsDoneQuiesce (u.rtsDoneUnlink e r status) e)
    (.ite (c := ((u.rtsDoneUnlink e r status).ep e).dirIn = true)
      (sameOwners_emit .cxdone _)
      (.ite (c := (u.rtsDoneUnlink e r status).filterAnswer r ≠ 0)
        (sameOwners_emit .cxstall _) (sameOwners_emit .cxdone _)))
  exact ((sameOwners_rtsDoneUnlink u e r status).trans hmid).trans (sameOwners_emit _ _)

theorem sameOwners_rtsDoneWqEnter (u : Udc) (e : EpId) (r : ReqId) (status : Int) :
    SameOwners u (u.rtsDoneWqEnter e r status) :=
  ((sameOwners_rtsDoneUnlink u e r status).trans (sameOwners_rtsDoneQuiesce _ e)).trans
    (sameOwners_emit _ _)

theorem sameOwners_rtsDoneLeave (u : Udc) (e : EpId) (stopped : Bool) :
    SameOwners u (u.rtsDoneLeave e stopped) := by
  have hcount : SameOwners u (if u.requestPending > 0 then
      { u with requestPending := u.requestPending - 1 } else u) :=
    .ite (sameOwners_of_ep rfl rfl rfl) (.refl u)
  exact hcount.trans
    (sameOwners_setEp (f := fun x => { x with stopped := stopped }) (fun _ => rfl) _ e)

/-! ## SETUP packets -/

theorem sameOwners_rtsEpQueue (hlen : (u.req r).length ≠ 0) (mapped : Int) :
    (rtsEpQueue noCallbacks e r mapped u false).Post fun _ v _ => SameOwners u v := by
  have hlink := sameOwners_rtsEpQueueLink u e r
  obtain ⟨a, v, hret, hv⟩ := rtsEpQueue_eq noCallbacks e r mapped [] (.inr hlen)
  have hudc : v = ((⟨u, []⟩ : Machine).epQueue e r).udc := by rw [hv]
  rw [hret]
  show SameOwners u v
  rw [hudc]
  unfold Machine.epQueue
  simp only [length_rtsEpQueueLink, hlen, if_false]
  split
  · exact (hlink.trans (sameOwners_rtsStartEp0Transfer _ e r)).trans
      (sameOwners_rtsEpQueueStart _ e r _)
  · exact (hlink.trans (sameOwners_rtsEpQueueIrq _ e _)).trans
      (sameOwners_rtsEpQueueStart _ e r _)

theorem sameOwners_getStatusData (ctrl : SetupPacket) (u : Udc) :
    (getStatusData ctrl u true).Post fun _ v held => SameOwners u v ∧ held = true := by
  unfold getStatusData
  split
  · exact ⟨sameOwners_of_ep rfl rfl rfl, rfl⟩
  · split
    · exact ⟨sameOwners_of_ep rfl rfl rfl, rfl⟩
    · split
      · split
        · exact ⟨sameOwners_emit _ u, rfl⟩
        · cases targetSlot ctrl with
          | none => trivial
          | some e => exact ⟨sameOwners_of_ep rfl rfl rfl, rfl⟩
      · exact ⟨sameOwners_emit _ u, rfl⟩

theorem sameOwners_rtsUsbReqEp0GetStatus (ctrl : SetupPacket) (u : Udc) :
    (rtsUsbReqEp0GetStatus noCallbacks ctrl u true).Post fun _ v _ => SameOwners u v := by
  unfold rtsUsbReqEp0GetStatus
  refine post_bind (sameOwners_getStatusData ctrl u) ?_
  rintro answers v held ⟨hv, rfl⟩
  cases answers with
  | false => exact hv
  | true =>
    let w := v.setReq ep0Req fun q => { q with length := 2, zero := false }
    have hlen : (w.req ep0Req).length ≠ 0 := by
      show ((Udc.setReq _ _ _).req ep0Req).length ≠ 0
      rw [setReq_req_self]
      exact of_decide_eq_true rfl
    show ((rtsEpQueue noCallbacks ep0 ep0Req 0 >>= fun _ => spinLock) w false).Post _
    refine post_bind (sameOwners_rtsEpQueue hlen 0) fun a x held hx => ?_
    cases held with
    | false => exact (hv.trans (sameOwners_setReq ep0Req _ v)).trans hx
    | true => trivial

theorem sameOwners_rtsUsbReqEp0ClearFeature (ctrl : SetupPacket) (u : Udc) :
    (rtsUsbReqEp0ClearFeature ctrl u true).Post fun _ v _ => SameOwners u v := by
  unfold rtsUsbReqEp0ClearFeature
  cases targetSlot ctrl with
  | none => trivial
  | some e =>
    dsimp only
    split
    · exact sameOwners_emit _ u
    · split
      · split
        · exact sameOwners_emit _ u
        · show Outcome.Post _ ((if (u.ep e).wedged = true then _ else _ : Prog Udc Unit) u true)
          split
          · exact sameOwners_emit _ u
          · split
            · trivial
            · exact sameOwners_emit _ u
      · exact sameOwners_emit _ u

theorem sameOwners_rtsUsbReqEp0SetFeature (ctrl : SetupPacket) (u : Udc) :
    (rtsUsbReqEp0SetFeature ctrl u true).Post fun _ v _ => SameOwners u v := by
  unfold rtsUsbReqEp0SetFeature
  split
  · show Outcome.Post _ ((if ctrl.wValue = 2 then _ else _ : Prog Udc Unit) _ true)
    split
    · exact sameOwners_of_ep rfl rfl rfl
    · exact sameOwners_emit _ u
  · split
    · exact sameOwners_emit _ u
    · split
      · split
        · exact sameOwners_of_ep rfl rfl rfl
        · cases targetSlot ctrl with
          | none => trivial
          | some e => exact (sameOwners_rtsSetEpnstall u e).trans (sameOwners_emit _ _)
      · exact sameOwners_emit _ u

theorem sameOwners_rtsUsbReqEp0SetAddress (highSpeed : Bool) (ctrl : SetupPacket) (u : Udc) :
    (rtsUsbReqEp0SetAddress highSpeed ctrl u true).Post fun _ v _ => SameOwners u v := by
  have haddr (v : Udc) : SameOwners v (rtsSetDevAddr ctrl.wValue v) := by
    unfold rtsSetDevAddr
    exact .ite (sameOwners_of_ep rfl rfl rfl) (sameOwners_of_ep rfl rfl rfl)
  let v := { u with speed := if highSpeed then .high else .full }
  show Outcome.Post _ ((if ctrl.wValue ≥ 0x100 then _ else _ : Prog Udc Unit) v true)
  split
  · exact sameOwners_of_ep rfl rfl rfl
  · exact .trans (v := v) (sameOwners_of_ep rfl rfl rfl) (haddr v)

theorem sameOwners_rtsUsbSetupProcess (highSpeed : Bool) (ctrl : SetupPacket) (u : Udc) :
    (rtsUsbSetupProcess noCallbacks highSpeed ctrl u true).Post fun _ v _ => SameOwners u v := by
  let v := u.setEp ep0 fun x => { x with dirIn := ctrl.bRequestType &&& 0x80 ≠ 0 }
  have hv : SameOwners u v := sameOwners_setEp0 (fun _ => by rfl) u
  have hdone {p : Prog Udc Unit} (hp : (p v true).Post fun _ x _ => SameOwners v x) :
      ((p >>= fun _ => (pure 0 : Prog Udc Int)) v true).Post fun _ x _ => SameOwners u x :=
    post_bind hp fun _ _ _ hx => hv.trans hx
  show Outcome.Post _ ((if ctrl.bRequestType &&& 0x60 = 0 then _ else _ : Prog Udc Int) v true)
  split
  · unfold rtsUsbEp0StandardRequest
    split
    · exact hdone (sameOwners_rtsUsbReqEp0GetStatus ctrl v)
    · split
      · exact hdone (sameOwners_rtsUsbReqEp0ClearFeature ctrl v)
      · split
        · exact hdone (sameOwners_rtsUsbReqEp0SetFeature ctrl v)
        · split
          · exact hdone (sameOwners_rtsUsbReqEp0SetAddress highSpeed ctrl v)
          · exact hv
  · exact hv

end RealtekIpcam.Udc
