import RealtekIpcam.Udc.Frame

/-!
# What enabling and disabling do

`rts_ep_enable` and `rts_ep_disable` are the operations that change the identity of an endpoint: its
number, its channel and its enable flag.  They do so for one endpoint only, which is what
`Local e u v` says: apart from the endpoint `e` itself nothing happens that matters to a transfer.

`rtsEpEnable_ok` is what an enable that returns 0 leaves behind, and `rtsEpDisableBegin_local` what
a disable does before it looks at the queue.
-/

namespace RealtekIpcam.Udc

/-- An endpoint reduced to its queue, identity and direction. -/
def Endpoint.route (x : Endpoint) : Endpoint :=
  { queue := x.queue, epEnable := x.epEnable, epnum := x.epnum, mcnum := x.mcnum
    dirIn := x.dirIn, dirOut := x.dirOut }

theorem Endpoint.route_core (x : Endpoint) : x.core.route = x.route := rfl

/-- Nothing changes that a transfer depends on, except the identity of the endpoint `e`. -/
structure Local (e : EpId) (u v : Udc) : Prop where
  other : ∀ e', e' ≠ e → (v.ep e').core = (u.ep e').core
  queue : (v.ep e).queue = (u.ep e).queue
  pending : v.requestPending = u.requestPending
  doneWork : v.doneWork = u.doneWork
  log : xferLog v.log = xferLog u.log
  started : v.started = u.started
  busy : v.busy = u.busy
  xferWork : v.xferWork = u.xferWork

variable {u v w : Udc} {e : EpId}

theorem Quiet.route (h : Quiet u v) (e : EpId) : (v.ep e).route = (u.ep e).route := by
  rw [← Endpoint.route_core (v.ep e), h.core e, Endpoint.route_core]

theorem Quiet.local (h : Quiet u v) (e : EpId) : Local e u v where
  other e' _ := h.core e'
  queue := h.silent.queue e
  pending := h.pending
  doneWork := h.doneWork
  log := h.log
  started := h.started
  busy := h.busy
  xferWork := h.xferWork

theorem Local.trans (h : Local e u v) (k : Local e v w) : Local e u w where
  other e' he := (k.other e' he).trans (h.other e' he)
  queue := k.queue.trans h.queue
  pending := k.pending.trans h.pending
  doneWork := k.doneWork.trans h.doneWork
  log := k.log.trans h.log
  started := k.started.trans h.started
  busy := k.busy.trans h.busy
  xferWork := k.xferWork.trans h.xferWork

theorem local_setEp {f : Endpoint → Endpoint} (hf : ∀ x, (f x).queue = x.queue) (u : Udc)
    (e : EpId) : Local e u (u.setEp e f) where
  other e' he := by rw [setEp_ep_of_ne he]
  queue := setEp_apply (p := Endpoint.queue) hf u e e
  pending := rfl
  doneWork := rfl
  log := rfl
  started := rfl
  busy := rfl
  xferWork := rfl

/-! ## Enabling -/

theorem rtsClearEpnstall_local (u : Udc) (e : EpId) : Local e u (u.rtsClearEpnstall e) := by
  unfold rtsClearEpnstall
  dsimp only
  have h := local_setEp (f := fun x => { x with stall := false }) (fun _ => rfl) u e
  split
  · exact h.trans ((quiet_emit rfl _).local e)
  · exact h

theorem rtsClearEpnstall_route (u : Udc) (e : EpId) :
    ((u.rtsClearEpnstall e).ep e).route = (u.ep e).route := by
  have h := setEp_apply (p := Endpoint.route) (f := fun x => { x with stall := false })
    (fun _ => rfl) u e e
  unfold rtsClearEpnstall
  dsimp only
  split
  · exact h
  · exact h

/-- The first two lines of `rts_set_ep_enable`, which are all that matters of it. -/
def markEnabled (u : Udc) (e : EpId) : Udc :=
  (u.setEp e fun x => { x with epEnable := true }).rtsClearEpnstall e

theorem quiet_rtsSetEpEnable (u : Udc) (e : EpId) :
    Quiet (u.markEnabled e) (u.rtsSetEpEnable e) := by
  unfold rtsSetEpEnable
  change Quiet (u.markEnabled e) (emit (if _ then setEp (if _ then (u.markEnabled e).emit _
    else u.markEnabled e) e _ else if _ then (u.markEnabled e).emit _ else u.markEnabled e) _)
  have hdis (c : Prop) [Decidable c] : Quiet (u.markEnabled e)
      (if c then (u.markEnabled e).emit (.mcDisable ((u.markEnabled e).ep e).mcnum)
        else u.markEnabled e) :=
    Quiet.ite (quiet_emit rfl _) (Quiet.refl _)
  exact (Quiet.ite ((hdis _).trans (quiet_setEp (fun _ => by rfl) _ e)) (hdis _)).trans
    (quiet_emit rfl _)

theorem rtsSetEpEnable_local (u : Udc) (e : EpId) : Local e u (u.rtsSetEpEnable e) :=
  ((local_setEp (fun _ => by rfl) u e).trans (rtsClearEpnstall_local _ e)).trans
    ((quiet_rtsSetEpEnable u e).local e)

theorem rtsSetEpEnable_route (u : Udc) (e : EpId) :
    ((u.rtsSetEpEnable e).ep e).route = { (u.ep e).route with epEnable := true } := by
  rw [(quiet_rtsSetEpEnable u e).route e]
  unfold markEnabled
  rw [rtsClearEpnstall_route, setEp_ep_self]
  rfl

theorem rtsSetEpFifoMapping_local (u : Udc) (e : EpId) :
    Local e u (u.rtsSetEpFifoMapping e).2 := by
  have h := local_setEp (f := fun x => { x with mcnum := (fifoOf (u.ep e)).1 }) (fun _ => rfl) u e
  unfold rtsSetEpFifoMapping
  dsimp only
  split
  · exact h
  · exact ⟨h.other, h.queue, h.pending, h.doneWork, h.log, h.started, h.busy, h.xferWork⟩

theorem rtsSetEpFifoMapping_route (u : Udc) (e : EpId) :
    ((u.rtsSetEpFifoMapping e).2.ep e).route =
      { (u.ep e).route with mcnum := (fifoOf (u.ep e)).1 } := by
  have h : ((u.setEp e fun x => { x with mcnum := (fifoOf (u.ep e)).1 }).ep e).route =
      { (u.ep e).route with mcnum := (fifoOf (u.ep e)).1 } := by
    rw [setEp_ep_self]
    rfl
  unfold rtsSetEpFifoMapping
  dsimp only
  split
  · exact h
  · exact h

/-- The channel that `rts_config_ep` gives an endpoint. -/
def mappedMcnum (x : Endpoint) : Nat := if usesDma x then (fifoOf x).1 else x.mcnum

theorem usbEndpointDirOut_eq (desc : EpDesc) :
    usbEndpointDirOut desc = !usbEndpointDirIn desc := by
  have hbits : ∀ b : BitVec 8, (b &&& 0x80#8 == 0#8) = !(b &&& 0x80#8 == 0x80#8) := by
    decide +kernel
  have h := hbits desc.bEndpointAddress.toBitVec
  unfold usbEndpointDirOut usbEndpointDirIn
  rw [Bool.eq_iff_iff] at h ⊢
  simpa [← UInt8.toBitVec_inj] using h

/-- `rts_config_ep` up to the FIFO mapping, with the value it returns if that is refused. -/
def configMapping (u : Udc) (e : EpId) : Int × Udc :=
  if usesDma ((u.rtsSetEpMaxpkt e 0).ep e) then (u.rtsSetEpMaxpkt e 0).rtsSetEpFifoMapping e
  else (0, u.rtsSetEpMaxpkt e 0)

theorem configMapping_local (u : Udc) (e : EpId) : Local e u (u.configMapping e).2 := by
  have hpkt := (quiet_rtsSetEpMaxpkt u e 0).local e
  unfold configMapping
  split
  · exact hpkt.trans (rtsSetEpFifoMapping_local _ e)
  · exact hpkt

theorem configMapping_route (u : Udc) (e : EpId) :
    ((u.configMapping e).2.ep e).route =
      { (u.ep e).route with mcnum := mappedMcnum (u.ep e) } := by
  have hx : ((u.rtsSetEpMaxpkt e 0).ep e).route = (u.ep e).route :=
    (quiet_rtsSetEpMaxpkt u e 0).route e
  have huse : usesDma ((u.rtsSetEpMaxpkt e 0).ep e) = usesDma (u.ep e) := by
    show usesDma ((u.rtsSetEpMaxpkt e 0).ep e).route = usesDma (u.ep e).route
    rw [hx]
  have hfifo : fifoOf ((u.rtsSetEpMaxpkt e 0).ep e) = fifoOf (u.ep e) := by
    show fifoOf ((u.rtsSetEpMaxpkt e 0).ep e).route = fifoOf (u.ep e).route
    rw [hx]
  unfold configMapping mappedMcnum
  rw [huse]
  split
  · rw [rtsSetEpFifoMapping_route, hx, hfifo]
  · exact hx

theorem rtsConfigEp_cases (u : Udc) (e : EpId) (desc : EpDesc) :
    ((u.configMapping e).1 ≠ 0 ∧ u.rtsConfigEp e desc = u.configMapping e) ∨
      ∃ v, Quiet (u.configMapping e).2 v ∧ u.rtsConfigEp e desc = (0, v.rtsSetEpEnable e) := by
  unfold rtsConfigEp
  dsimp only
  change (_ ∧ (if (u.configMapping e).1 ≠ 0 then _ else _ : Int × Udc) = _) ∨
    ∃ v, _ ∧ (if (u.configMapping e).1 ≠ 0 then _ else _ : Int × Udc) = _
  by_cases hret : (u.configMapping e).1 = 0
  · rw [if_neg (not_not.mpr hret)]
    -- the packets per microframe of a UVC endpoint
    exact .inr ⟨_, Quiet.ite (quiet_setEp (fun _ => by rfl) _ e) (Quiet.refl _), rfl⟩
  · rw [if_pos hret]
    exact .inl ⟨hret, rfl⟩

/-- The endpoint as `rts_ep_enable` hands it to `rts_config_ep`. -/
def copyDesc (u : Udc) (e : EpId) (desc : EpDesc) : Udc :=
  (u.setEp e fun x => { x with desc := some desc, epnum := usbEndpointNum desc }).setEp e fun x =>
    { x with
      type := usbEndpointType desc
      dirIn := usbEndpointDirIn desc
      dirOut := usbEndpointDirOut desc
      maxpacket := usbEndpointMaxp desc }

theorem copyDesc_local (u : Udc) (e : EpId) (desc : EpDesc) : Local e u (u.copyDesc e desc) :=
  (local_setEp (fun _ => by rfl) u e).trans (local_setEp (fun _ => by rfl) _ e)

theorem copyDesc_fields (u : Udc) (e : EpId) (desc : EpDesc) :
    ((u.copyDesc e desc).ep e).epnum = usbEndpointNum desc ∧
      ((u.copyDesc e desc).ep e).dirIn = usbEndpointDirIn desc ∧
      ((u.copyDesc e desc).ep e).dirOut = usbEndpointDirOut desc := by
  unfold copyDesc
  rw [setEp_ep_self, setEp_ep_self]
  exact ⟨rfl, rfl, rfl⟩

theorem rtsEpEnable_eq {desc : EpDesc} (hnum : usbEndpointNum desc ≠ 0) :
    u.rtsEpEnable e desc = (u.copyDesc e desc).rtsConfigEp e desc := by
  unfold rtsEpEnable
  exact if_neg hnum

theorem rtsEpEnable_local (u : Udc) (e : EpId) (desc : EpDesc) :
    Local e u (u.rtsEpEnable e desc).2 ∧
      ((u.rtsEpEnable e desc).2.ep e).epnum = usbEndpointNum desc := by
  by_cases hnum : usbEndpointNum desc = 0
  · have heq : (u.rtsEpEnable e desc).2 =
        u.setEp e fun x => { x with desc := some desc, epnum := usbEndpointNum desc } := by
      unfold rtsEpEnable
      rw [if_pos hnum]
    rw [heq, setEp_ep_self]
    exact ⟨local_setEp (fun _ => by rfl) u e, rfl⟩
  · rw [rtsEpEnable_eq hnum]
    have hcopy := copyDesc_local u e desc
    have hmap := configMapping_local (u.copyDesc e desc) e
    have hroute : (((u.copyDesc e desc).configMapping e).2.ep e).epnum = usbEndpointNum desc :=
      (congrArg Endpoint.epnum (configMapping_route (u.copyDesc e desc) e)).trans
        (copyDesc_fields u e desc).1
    rcases rtsConfigEp_cases (u.copyDesc e desc) e desc with ⟨-, h⟩ | ⟨v, hv, h⟩
    · rw [h]
      exact ⟨hcopy.trans hmap, hroute⟩
    · rw [h]
      refine ⟨((hcopy.trans hmap).trans (hv.local e)).trans (rtsSetEpEnable_local v e), ?_⟩
      refine (congrArg Endpoint.epnum (rtsSetEpEnable_route v e)).trans ?_
      exact (hv.silent.epnum e).trans hroute

/-- **What `rts_ep_enable` leaves behind** when it returns 0, with a descriptor other than ep0's. -/
theorem rtsEpEnable_ok {desc : EpDesc} (hnum : usbEndpointNum desc ≠ 0)
    (hret : (u.rtsEpEnable e desc).1 = 0) :
    ((u.rtsEpEnable e desc).2.ep e).epEnable = true ∧
      ((u.rtsEpEnable e desc).2.ep e).dirIn = usbEndpointDirIn desc ∧
      ((u.rtsEpEnable e desc).2.ep e).dirOut = usbEndpointDirOut desc ∧
      ((u.rtsEpEnable e desc).2.ep e).mcnum = mappedMcnum ((u.copyDesc e desc).ep e) := by
  rw [rtsEpEnable_eq hnum] at hret ⊢
  have hroute := configMapping_route (u.copyDesc e desc) e
  obtain ⟨-, hin, hout⟩ := copyDesc_fields u e desc
  rcases rtsConfigEp_cases (u.copyDesc e desc) e desc with ⟨hne, h⟩ | ⟨v, hv, h⟩
  · rw [h] at hret
    exact absurd hret hne
  · have hfinal : ((v.rtsSetEpEnable e).ep e).route = { ((u.copyDesc e desc).ep e).route with
        mcnum := mappedMcnum ((u.copyDesc e desc).ep e), epEnable := true } := by
      rw [rtsSetEpEnable_route, hv.route e, hroute]
    rw [h]
    exact ⟨congrArg Endpoint.epEnable hfinal, (congrArg Endpoint.dirIn hfinal).trans hin,
      (congrArg Endpoint.dirOut hfinal).trans hout, congrArg Endpoint.mcnum hfinal⟩

theorem fifoOf_uvc {x : Endpoint} (hin : x.dirIn = true) (huvc : isUvcNum x.epnum = true) :
    usesDma x = true ∧ fifoOf x = (x.epnum - 5, false) := by
  have h56 : x.epnum = 5 ∨ x.epnum = 6 := by simpa [isUvcNum] using huvc
  unfold usesDma fifoOf
  rw [hin]
  rcases h56 with h | h
  · rw [h]
    exact ⟨rfl, rfl⟩
  · rw [h]
    exact ⟨rfl, rfl⟩

theorem rtsEpEnable_uvc {desc : EpDesc} (huvc : isUvcNum (usbEndpointNum desc) = true)
    (hin : usbEndpointDirIn desc = true) :
    (u.rtsEpEnable e desc).1 = 0 ∧
      mappedMcnum ((u.copyDesc e desc).ep e) = usbEndpointNum desc - 5 := by
  have hnum : usbEndpointNum desc ≠ 0 := by
    intro h0
    rw [h0] at huvc
    cases huvc
  obtain ⟨hepnum, hdir, -⟩ := copyDesc_fields u e desc
  rw [← hepnum] at huvc
  rw [hin] at hdir
  constructor
  · have hroute := (quiet_rtsSetEpMaxpkt (u.copyDesc e desc) e 0).route e
    have huvc' : isUvcNum (((u.copyDesc e desc).rtsSetEpMaxpkt e 0).ep e).epnum = true :=
      (congrArg (fun x => isUvcNum x.epnum) hroute).trans huvc
    have hdir' : (((u.copyDesc e desc).rtsSetEpMaxpkt e 0).ep e).dirIn = true :=
      (congrArg Endpoint.dirIn hroute).trans hdir
    obtain ⟨huse, hfifo⟩ := fifoOf_uvc hdir' huvc'
    have hzero : ((u.copyDesc e desc).configMapping e).1 = 0 := by
      unfold configMapping rtsSetEpFifoMapping
      rw [if_pos huse, hfifo]
      rfl
    rw [rtsEpEnable_eq hnum]
    rcases rtsConfigEp_cases (u.copyDesc e desc) e desc with ⟨hne, -⟩ | ⟨v, -, h⟩
    · exact absurd hzero hne
    · rw [h]
  · obtain ⟨huse, hfifo⟩ := fifoOf_uvc hdir huvc
    unfold mappedMcnum
    rw [if_pos huse, hfifo, hepnum]

/-- The part of `rts_ep_disable` before its decision what to do with the queue is local, except that
for a UVC number it queues the flush work. -/
theorem rtsEpDisableBegin_local (u : Udc) (e : EpId) :
    (∀ e', e' ≠ e → ((u.rtsEpDisableBegin e).ep e').core = (u.ep e').core) ∧
      ((u.rtsEpDisableBegin e).ep e).epnum = (u.ep e).epnum ∧
      ((u.rtsEpDisableBegin e).ep e).queue = (u.ep e).queue ∧
      loudLog (u.rtsEpDisableBegin e).log = loudLog u.log ∧
      (u.rtsEpDisableBegin e).doneWork = if isUvcNum (u.ep e).epnum then
        Function.update u.doneWork (uvcSlot (u.ep e).epnum) true else u.doneWork := by
  have hoff : Quiet (u.setEp e fun x => { x with epEnable := false }) (u.rtsSetEpDisable e) := by
    unfold rtsSetEpDisable
    dsimp only
    exact (Quiet.ite (quiet_emit rfl _) (Quiet.refl _)).trans (quiet_emit rfl _)
  have hself : ((u.rtsSetEpDisable e).ep e).epnum = (u.ep e).epnum := by
    rw [hoff.silent.epnum, setEp_ep_self]
  have hqueue : ((u.rtsSetEpDisable e).ep e).queue = (u.ep e).queue := by
    rw [hoff.silent.queue, setEp_ep_self]
  have hother (e' : EpId) (he : e' ≠ e) :
      ((u.rtsSetEpDisable e).ep e').core = (u.ep e').core := by
    rw [hoff.core, setEp_ep_of_ne he]
  have hwork : (u.rtsSetEpDisable e).doneWork = u.doneWork := hoff.doneWork
  unfold rtsEpDisableBegin
  dsimp only [releaseMcm]
  rw [hself]
  split
  · exact ⟨hother, hself, hqueue, hoff.silent.log, by rw [hwork]⟩
  · exact ⟨hother, hself, hqueue, hoff.silent.log, hwork⟩

end RealtekIpcam.Udc
