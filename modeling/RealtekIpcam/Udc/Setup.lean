import RealtekIpcam.Udc.Frame

/-!
# What a SETUP packet does

The standard requests that the driver answers itself change little: bits of the endpoints, the
speed and the address, and the acknowledgement on ep0.  Only GET_STATUS moves data, by
queueing the driver's own request `ep0_req` on ep0.  `Machine.setupProcess_cases` says exactly
this of the SETUP step of the machine, and is all that the properties of the driver need to
know of the handlers.
-/

namespace RealtekIpcam
namespace Udc

open LockLogic

variable {u : Udc} {hs : Bool} {ctrl : SetupPacket}

/-! ## Queueing without a callback -/

theorem length_rtsEpQueueLink (u : Udc) (e : EpId) (r : ReqId) :
    ((u.rtsEpQueueLink e r).req r).length = (u.req r).length := by
  unfold rtsEpQueueLink
  dsimp only [emit]
  rw [setReq_req_self]
  rfl

/-- `rts_ep_queue` of a request that is not an empty one on ep0 makes no callback, and ends as the
machine's step does. -/
theorem rtsEpQueue_eq (g : Callbacks) (e : EpId) (r : ReqId) (mapped : Int) (ts : List Task)
    (h : (u.ep e).epnum ≠ 0 ∨ (u.req r).length ≠ 0) :
    ∃ a v, rtsEpQueue g e r mapped u false = .ret a v false ∧
      (⟨u, ts⟩ : Machine).epQueue e r = ⟨v, ts⟩ := by
  have hlen := length_rtsEpQueueLink u e r
  by_cases hnum : (u.ep e).epnum = 0
  · have hne : (u.req r).length ≠ 0 := h.resolve_left (fun hn => hn hnum)
    let v := (u.rtsEpQueueLink e r).rtsStartEp0Transfer e r
    refine ⟨if usesDma (v.ep e) then mapped else 0,
      v.rtsEpQueueStart e r (u.ep e).queue.isEmpty, ?_, ?_⟩
    · simp only [rtsEpQueue, rtsEp0Queue, spinLock_bind, get_bind, modify_bind, hnum, if_true,
        bind_bind, hlen, hne, if_false, spinUnlock_bind, pure_apply, v]
    · simp only [Machine.epQueue, hnum, hlen, hne, if_true, if_false, v]
  · let v := (u.rtsEpQueueLink e r).rtsEpQueueIrq e (u.ep e).queue.isEmpty
    refine ⟨if usesDma (v.ep e) then mapped else 0,
      v.rtsEpQueueStart e r (u.ep e).queue.isEmpty, ?_, ?_⟩
    · simp only [rtsEpQueue, spinLock_bind, get_bind, modify_bind, hnum, if_false,
        spinUnlock_bind, pure_apply, v]
    · simp only [Machine.epQueue, hnum, if_false, v]

/-! ## The standard requests -/

/-- The effect of a standard request: nothing that matters, or the queueing of `ep0_req`. -/
def SetupEffect (ctrl : SetupPacket) (u v : Udc) : Prop :=
  Silent u v ∨
    (Machine.asksStatus ctrl = true ∧ ∃ w, Silent u w ∧ (w.req ep0Req).length = 2 ∧
      ∀ ts, (⟨w, ts⟩ : Machine).epQueue ep0 ep0Req = ⟨v, ts⟩)

theorem post_modify {f : Udc → Udc} (h : Silent u (f u)) (k : Bool) :
    (modify f u k).Post fun _ v held => Silent u v ∧ held = k :=
  ⟨h, rfl⟩

theorem getStatusData_post :
    (getStatusData ctrl u true).Post fun _ v held => Silent u v ∧ held = true := by
  unfold getStatusData
  split
  · exact ⟨⟨fun _ => rfl, rfl, rfl, rfl⟩, rfl⟩
  · split
    · exact ⟨⟨fun _ => rfl, rfl, rfl, rfl⟩, rfl⟩
    · split
      · split
        · exact ⟨(quiet_rtsSetCxstall u).silent, rfl⟩
        · cases targetSlot ctrl with
          | none => trivial
          | some e => exact ⟨⟨fun _ => rfl, rfl, rfl, rfl⟩, rfl⟩
      · exact ⟨(quiet_rtsSetCxstall u).silent, rfl⟩

theorem rtsUsbReqEp0GetStatus_post (h : Machine.asksStatus ctrl = true) :
    (rtsUsbReqEp0GetStatus noCallbacks ctrl u true).Post fun _ v _ =>
      SetupEffect ctrl u v := by
  unfold rtsUsbReqEp0GetStatus
  refine post_bind getStatusData_post ?_
  rintro answers v held ⟨hv, rfl⟩
  cases answers with
  | false => exact .inl hv
  | true =>
    -- `ep0_req` gets two bytes, so queueing it makes no callback
    let w := v.setReq ep0Req fun q => { q with length := 2, zero := false }
    have hlen : (w.req ep0Req).length = 2 := by
      show ((Udc.setReq _ _ _).req ep0Req).length = 2
      rw [setReq_req_self]
    have hne : (w.req ep0Req).length ≠ 0 := by rw [hlen]; decide
    have hw : Silent u w := hv.trans (quiet_setReq v ep0Req _).silent
    obtain ⟨a, x, hret, -⟩ := rtsEpQueue_eq noCallbacks ep0 ep0Req 0 [] (.inr hne)
    have heff : SetupEffect ctrl u x := by
      refine .inr ⟨h, w, hw, hlen, fun ts => ?_⟩
      obtain ⟨a', x', hret', hx'⟩ := rtsEpQueue_eq noCallbacks ep0 ep0Req 0 ts (.inr hne)
      rw [hret] at hret'
      cases hret'
      exact hx'
    show ((rtsEpQueue noCallbacks ep0 ep0Req 0 >>= fun _ => spinLock) w false).Post _
    rw [bind_ret hret]
    exact heff

theorem rtsUsbReqEp0ClearFeature_post :
    (rtsUsbReqEp0ClearFeature ctrl u true).Post fun _ v _ => Silent u v := by
  unfold rtsUsbReqEp0ClearFeature
  cases targetSlot ctrl with
  | none => trivial
  | some e =>
    dsimp only
    split
    · exact (quiet_rtsSetCxdone u).silent
    · split
      · split
        · exact (quiet_rtsSetCxdone u).silent
        · show Outcome.Post _ ((if (u.ep e).wedged = true then _ else _ : Prog Udc Unit) u true)
          split
          · exact (quiet_rtsSetCxdone u).silent
          · split
            · -- `rts_set_halt_and_wedge` takes the lock that is held
              trivial
            · exact (quiet_rtsSetCxdone u).silent
      · exact (quiet_rtsSetCxstall u).silent

theorem rtsUsbReqEp0SetFeature_post :
    (rtsUsbReqEp0SetFeature ctrl u true).Post fun _ v _ => Silent u v := by
  unfold rtsUsbReqEp0SetFeature
  split
  · refine post_bind (post_modify (quiet_rtsSetCxdone u).silent true) ?_
    rintro _ v held ⟨hv, rfl⟩
    split
    · exact hv.trans ⟨fun _ => rfl, rfl, rfl, rfl⟩
    · exact hv
  · split
    · exact (quiet_rtsSetCxdone u).silent
    · split
      · dsimp only
        split
        · exact (quiet_rtsSetCxstall u).silent.trans (quiet_rtsSetCxdone _).silent
        · cases targetSlot ctrl with
          | none => trivial
          | some e => exact (silent_rtsSetEpnstall u e).trans (quiet_rtsSetCxdone _).silent
      · exact (quiet_rtsSetCxstall u).silent

theorem silent_rtsSetDevAddr (addr : UInt16) (u : Udc) : Silent u (rtsSetDevAddr addr u) := by
  have hwrite (v : Udc) (n : UInt32) :
      Silent v ({ v with usbAddr := n }.emit (.usbAddr n)) :=
    Silent.trans (v := { v with usbAddr := n }) ⟨fun _ => rfl, rfl, rfl, rfl⟩
      (quiet_emit (a := .usbAddr n) rfl _).silent
  unfold rtsSetDevAddr
  dsimp only
  exact Silent.ite ((quiet_rtsSetCxdone u).silent.trans (hwrite _ _))
    ((hwrite u _).trans (quiet_rtsSetCxdone _).silent)

theorem rtsUsbReqEp0SetAddress_post :
    (rtsUsbReqEp0SetAddress hs ctrl u true).Post fun _ v _ => Silent u v := by
  unfold rtsUsbReqEp0SetAddress
  refine post_bind (Q := fun _ v _ => Silent u v) ⟨fun _ => rfl, rfl, rfl, rfl⟩ ?_
  intro _ v held hv
  split
  · exact hv.trans (quiet_rtsSetCxstall v).silent
  · exact hv.trans (silent_rtsSetDevAddr ctrl.wValue v)

theorem rtsUsbSetupProcess_post (hs : Bool) (ctrl : SetupPacket) (u : Udc) :
    (rtsUsbSetupProcess noCallbacks hs ctrl u true).Post fun ret v _ =>
      SetupEffect ctrl u v ∧ (ret = 0 ∨ Silent u v) := by
  have hdir : Silent u
      (u.setEp ep0 fun x => { x with dirIn := ctrl.bRequestType &&& 0x80 ≠ 0 }) :=
    silent_setEp (fun _ => by rfl) u ep0
  unfold rtsUsbSetupProcess
  refine post_bind (post_modify hdir true) ?_
  rintro _ v held ⟨hv, rfl⟩
  have handled {p : Prog Udc Unit} (hp : (p v true).Post fun _ w _ => Silent v w) :
      ((p >>= fun _ => (pure 0 : Prog Udc Int)) v true).Post fun ret w _ =>
        SetupEffect ctrl u w ∧ (ret = 0 ∨ Silent u w) :=
    post_bind hp fun _ w _ hw => ⟨.inl (hv.trans hw), .inl rfl⟩
  split
  · next hstd =>
    unfold rtsUsbEp0StandardRequest
    split
    · next hreq =>
      have hask : Machine.asksStatus ctrl = true := by
        unfold Machine.asksStatus
        rw [hstd, hreq]
        decide
      refine post_bind (rtsUsbReqEp0GetStatus_post hask) ?_
      rintro _ w _ (hw | ⟨_, x, hx, hrest⟩)
      · exact ⟨.inl (hv.trans hw), .inl rfl⟩
      · exact ⟨.inr ⟨hask, x, hv.trans hx, hrest⟩, .inl rfl⟩
    · split
      · exact handled rtsUsbReqEp0ClearFeature_post
      · split
        · exact handled rtsUsbReqEp0SetFeature_post
        · split
          · exact handled rtsUsbReqEp0SetAddress_post
          · exact ⟨.inl hv, .inr hv⟩
  · exact ⟨.inl hv, .inr hv⟩

end Udc

namespace Machine

open Udc LockLogic

/-- **The SETUP step.**  The packet is recorded, and then nothing happens that matters to requests
and endpoints, except that GET_STATUS queues `ep0_req`. -/
theorem setupProcess_cases {m n : Machine} {hs : Bool} {ctrl : SetupPacket}
    (h : m.setupProcess hs ctrl = some n) :
    ∃ w, Silent (m.udc.readSetup ctrl) w ∧
      (n = ⟨w, m.tasks⟩ ∨ n = ⟨w, .setup :: m.tasks⟩ ∨
        asksStatus ctrl = true ∧ (w.req ep0Req).length = 2 ∧
          n = (⟨w, m.tasks⟩ : Machine).epQueue ep0 ep0Req) := by
  have hpost := rtsUsbSetupProcess_post hs ctrl (m.udc.readSetup ctrl)
  unfold setupProcess at h
  cases hrun : rtsUsbSetupProcess noCallbacks hs ctrl (m.udc.readSetup ctrl) true with
  | ret ret v held =>
    rw [hrun] at h hpost
    obtain ⟨heff, hret⟩ := hpost
    rw [Option.some_inj] at h
    subst h
    by_cases h0 : ret = 0
    · rw [if_neg (not_not.mpr h0)]
      rcases heff with hv | ⟨hask, w, hw, hlen, hq⟩
      · exact ⟨v, hv, .inl rfl⟩
      · exact ⟨w, hw, .inr (.inr ⟨hask, hlen, (hq m.tasks).symm⟩)⟩
    · rw [if_pos h0]
      exact ⟨v, hret.resolve_left h0, .inr (.inl rfl)⟩
  | deadlock => rw [hrun] at h; cases h
  | fault => rw [hrun] at h; cases h
  | hang => rw [hrun] at h; cases h

end Machine
end RealtekIpcam
