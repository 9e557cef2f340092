import RealtekIpcam.Udc.Enable

/-!
# The hardware channel and the head of the queue

A completion interrupt does not say which request it is for: the handlers give back the head of the
queue.  This is right as long as the transfer on the channel is the head's, and `Agrees` is the
invariant that says so, of an enabled endpoint while nothing but its own events happen.

Two places of the code break it, both because a transfer is not started where one is needed.
`rts_ep_queue` starts a request that it queues on an empty queue only if the endpoint is neither
stalled nor stopped, and nothing starts it later: clearing the halt only switches the interrupt on.
And `rts_ep_dequeue` of the head neither stops its transfer nor starts the next request, as the
completion handlers do.  `ChannelOk` keeps a step out of these, and
`agreement_of_channelOk` is the property for all runs that meet it.
-/

namespace RealtekIpcam
namespace Udc

/-! ## Success means moved -/

/-- The hardware has reported a transfer of `r` finished since `r` was last queued. -/
def moved (r : ReqId) : List Action → Bool
  | [] => false
  | .xferDone r' :: l => r' == r || moved r l
  | .queued _ r' :: l => r' != r && moved r l
  | _ :: l => moved r l

/-- A transfer of `r` has been started on the channel of `e` since `r` was last queued. -/
def begun (e : EpId) (r : ReqId) : List Action → Bool
  | [] => false
  | .startDma e' r' _ :: l => e' == e && r' == r || begun e r l
  | .startIntr e' r' _ _ :: l => e' == e && r' == r || begun e r l
  | .queued _ r' :: l => r' != r && begun e r l
  | _ :: l => begun e r l

/-- Whenever a request of `e` was given back with status 0, it had been moved. -/
def Honest (e : EpId) : List Action → Prop
  | [] => True
  | .giveback e' r status :: l => (e' = e → status = 0 → moved r l = true) ∧ Honest e l
  | _ :: l => Honest e l

theorem moved_loudLog (r : ReqId) (l : List Action) : moved r (loudLog l) = moved r l := by
  induction l with
  | nil => rfl
  | cons a l ih =>
    unfold loudLog at ih ⊢
    cases a with
    | xferDone r' => exact congrArg (r' == r || ·) ih
    | queued e r' => exact congrArg (r' != r && ·) ih
    | _ => exact ih

theorem begun_xferLog (e : EpId) (r : ReqId) (l : List Action) :
    begun e r (xferLog l) = begun e r l := by
  induction l with
  | nil => rfl
  | cons a l ih =>
    unfold xferLog at ih ⊢
    cases a with
    | startDma e' r' mcnum => exact congrArg (e' == e && r' == r || ·) ih
    | startIntr e' r' off len => exact congrArg (e' == e && r' == r || ·) ih
    | queued e' r' => exact congrArg (r' != r && ·) ih
    | _ => exact ih

theorem honest_loudLog (e : EpId) (l : List Action) : Honest e (loudLog l) ↔ Honest e l := by
  induction l with
  | nil => exact Iff.rfl
  | cons a l ih =>
    unfold loudLog at ih ⊢
    cases a with
    | giveback e' r status =>
      show (_ → _ → moved r (loudLog l) = true) ∧ _ ↔ (_ → _ → moved r l = true) ∧ _
      rw [moved_loudLog]
      exact and_congr_right fun _ => ih
    | _ => exact ih

theorem Honest.of_append {e : EpId} {newer older : List Action} (h : Honest e (newer ++ older)) :
    Honest e older := by
  induction newer with
  | nil => exact h
  | cons a newer ih =>
    cases a with
    | giveback e' r status => exact ih h.2
    | _ => exact ih h

variable {u v w : Udc} {e : EpId} {n : Nat}

/-! ## Operations that leave the channel alone -/

/-- The queue, the channel, the loud actions and the starts stay. -/
structure Steady (e : EpId) (u v : Udc) : Prop where
  route : (v.ep e).route = (u.ep e).route
  started : v.started = u.started
  busy : v.busy = u.busy
  xferWork : v.xferWork = u.xferWork
  log : xferLog v.log = xferLog u.log

theorem Quiet.steady (h : Quiet u v) (e : EpId) : Steady e u v :=
  ⟨h.route e, h.started, h.busy, h.xferWork, h.log⟩

theorem Steady.trans (h : Steady e u v) (k : Steady e v w) : Steady e u w where
  route := k.route.trans h.route
  started := k.started.trans h.started
  busy := k.busy.trans h.busy
  xferWork := k.xferWork.trans h.xferWork
  log := k.log.trans h.log

theorem steady_setEp {f : Endpoint → Endpoint} (hf : ∀ x, (f x).route = x.route) (u : Udc)
    (e : EpId) : Steady e u (u.setEp e f) :=
  ⟨setEp_apply hf u e e, rfl, rfl, rfl, rfl⟩

theorem Steady.queue (h : Steady e u v) : (v.ep e).queue = (u.ep e).queue := by
  show (v.ep e).route.queue = (u.ep e).route.queue
  rw [h.route]

theorem Steady.chan (h : Steady e u v) : chan (v.ep e) = chan (u.ep e) := by
  show Udc.chan (v.ep e).route = Udc.chan (u.ep e).route
  rw [h.route]

theorem steady_rtsDoneLeave (u : Udc) (e : EpId) (stopped : Bool) :
    Steady e u (u.rtsDoneLeave e stopped) := by
  unfold rtsDoneLeave
  dsimp only
  refine Steady.trans (v := if u.requestPending > 0 then
    { u with requestPending := u.requestPending - 1 } else u) ?_
    (steady_setEp (fun _ => by rfl) _ e)
  split
  · exact ⟨rfl, rfl, rfl, rfl, rfl⟩
  · exact ⟨rfl, rfl, rfl, rfl, rfl⟩

theorem steady_rtsSetEpnstall (u : Udc) (e : EpId) : Steady e u (u.rtsSetEpnstall e) := by
  unfold rtsSetEpnstall
  dsimp only
  have h := steady_setEp (f := fun x => { x with stall := true }) (fun _ => rfl) u e
  split
  · exact h.trans ((quiet_emit rfl _).steady e)
  · exact h

theorem steady_rtsClearEpnstall (u : Udc) (e : EpId) : Steady e u (u.rtsClearEpnstall e) := by
  have h := rtsClearEpnstall_local u e
  exact ⟨rtsClearEpnstall_route u e, h.started, h.busy, h.xferWork, h.log⟩

theorem steady_setHaltAndWedge (u : Udc) (e : EpId) (value wedge : Bool) :
    Steady e u (u.setHaltAndWedge e value wedge) := by
  unfold setHaltAndWedge
  split
  · exact (steady_rtsSetEpnstall u e).trans (steady_setEp (fun _ => by rfl) _ e)
  · dsimp only
    have h := (steady_rtsClearEpnstall u e).trans
      (steady_setEp (f := fun x => { x with stall := false, wedged := false, stopped := false })
        (fun _ => rfl) (u.rtsClearEpnstall e) e)
    split
    · exact h.trans ((quiet_rtsSetEpIrqEnable _ e).steady e)
    · exact h

/-! ## Operations that start a transfer -/

/-- A transfer of `r` is started on the channel of `e`, and nothing else that matters. -/
structure Starts (e : EpId) (r : ReqId) (u v : Udc) : Prop where
  route : (v.ep e).route = (u.ep e).route
  started : v.started (chan (u.ep e)) = some r
  busy : v.busy (chan (u.ep e)) = u.busy (chan (u.ep e)) ++ [r]
  xferWork : v.xferWork = u.xferWork
  log : loudLog v.log = loudLog u.log
  begun : begun e r v.log = true

theorem Starts.chan {r : ReqId} (h : Starts e r u v) : chan (v.ep e) = chan (u.ep e) := by
  show Udc.chan (v.ep e).route = Udc.chan (u.ep e).route
  rw [h.route]

theorem Starts.queue {r : ReqId} (h : Starts e r u v) : (v.ep e).queue = (u.ep e).queue := by
  show (v.ep e).route.queue = (u.ep e).route.queue
  rw [h.route]

theorem starts_startXfer {c : Chan} (hv : Quiet u v) (hc : chan (u.ep e) = c) (r : ReqId)
    {a : Action} (ha : a.loud = false) (hbegun : begun e r (a :: v.log) = true) :
    Starts e r u ((v.startXfer c r).emit a) := by
  subst hc
  refine ⟨hv.route e, startXfer_started_self _ r, ?_, hv.xferWork, ?_, hbegun⟩
  · show (v.startXfer _ r).busy _ = _
    rw [startXfer_busy_self, hv.busy]
  · show loudLog (a :: v.log) = _
    rw [loudLog_cons_of_not_loud ha, hv.silent.log]

theorem starts_rtsStartDmaTransfer (hx : usesIntr (u.ep e) = false) (r : ReqId) :
    Starts e r u (u.rtsStartDmaTransfer e r) := by
  refine starts_startXfer (quiet_dmaPrepare u e r) ?_ r rfl (by simp [begun])
  unfold chan
  rw [hx]
  rfl

theorem starts_rtsStartIntrTransfer (hx : usesIntr (u.ep e) = true) (r : ReqId) :
    Starts e r u (u.rtsStartIntrTransfer e r) := by
  have hin : (u.ep e).dirIn = true := by
    unfold usesIntr at hx
    exact (Bool.and_eq_true_iff.mp hx).2
  unfold rtsStartIntrTransfer
  dsimp only
  rw [if_pos hin]
  refine starts_startXfer (quiet_setReq u r _) ?_ r rfl (by simp [begun])
  unfold chan
  rw [hx]
  rfl

theorem rtsStartNextRequest_nil (h : (u.ep e).queue = []) : u.rtsStartNextRequest e = u := by
  unfold rtsStartNextRequest
  rw [h]

theorem starts_rtsStartNextRequest {r : ReqId} {rest : List ReqId}
    (h : (u.ep e).queue = r :: rest) : Starts e r u (u.rtsStartNextRequest e) := by
  unfold rtsStartNextRequest
  rw [h]
  dsimp only
  by_cases hx : usesIntr (u.ep e) = true
  · rw [if_pos hx]
    exact starts_rtsStartIntrTransfer hx r
  · rw [if_neg hx]
    exact starts_rtsStartDmaTransfer (Bool.not_eq_true _ ▸ hx) r

/-! ## The invariant -/

/-- The endpoint has the number and the direction of its slot. -/
structure InPlace (e : EpId) (u : Udc) : Prop where
  epnum : (u.ep e).epnum = e.num
  dirIn : (u.ep e).dirIn = e.isIn
  dirOut : (u.ep e).dirOut = !e.isIn

theorem InPlace.of_route (h : InPlace e u) (hr : (v.ep e).route = (u.ep e).route) :
    InPlace e v where
  epnum := (congrArg Endpoint.epnum hr).trans h.epnum
  dirIn := (congrArg Endpoint.dirIn hr).trans h.dirIn
  dirOut := (congrArg Endpoint.dirOut hr).trans h.dirOut

theorem num_ne_zero (he : e ≠ ep0) : e.num ≠ 0 := by
  cases e with
  | epIn k => exact fun hk => he (congrArg EpId.epIn (Fin.ext hk))
  | epOut k => exact Nat.succ_ne_zero _

theorem InPlace.usesDma_eq (h : InPlace e u) (he : e ≠ ep0) :
    usesDma (u.ep e) = !usesIntr (u.ep e) := by
  have hnum := num_ne_zero he
  unfold usesDma usesIntr
  rw [h.epnum, h.dirIn, h.dirOut]
  cases e with
  | epIn k =>
    have hpos : 0 < EpId.num (.epIn k) := Nat.pos_of_ne_zero hnum
    show (decide (0 < EpId.num (.epIn k)) && decide (EpId.num (.epIn k) < 7) && true ||
      (EpId.num (.epIn k) != 0) && false) = !(decide (6 < EpId.num (.epIn k)) && true)
    by_cases h7 : EpId.num (.epIn k) < 7
    · have h6 : ¬ 6 < EpId.num (.epIn k) := by omega
      simp [hpos, h7, h6]
    · have h6 : 6 < EpId.num (.epIn k) := by omega
      simp [h7, h6]
  | epOut k =>
    have hne : (EpId.num (.epOut k) != 0) = true := bne_iff_ne.mpr hnum
    show (_ && false || (EpId.num (.epOut k) != 0) && true) = !(_ && false)
    rw [hne, Bool.and_false, Bool.and_false]
    rfl

/-- **The channel works for the head of the queue.**  Here `n` is the number of completion handlers
of the endpoint that are inside their callback; such a handler starts the next request when the
callback returns. -/
structure Agrees (e : EpId) (u : Udc) (n : Nat) : Prop where
  place : InPlace e u
  single : n ≤ 1
  started : n = 0 → ∀ r rest, (u.ep e).queue = r :: rest →
    u.started (chan (u.ep e)) = some r ∧ begun e r u.log = true
  busy : u.busy (chan (u.ep e)) = [] ∨ ∃ r, u.busy (chan (u.ep e)) = [r] ∧
    ((u.ep e).queue = [] ∨ ∃ rest, (u.ep e).queue = r :: rest)
  work : u.xferWork e = true → u.busy (chan (u.ep e)) = [] ∧
    ∀ r rest, (u.ep e).queue = r :: rest → moved r u.log = true
  idle : n ≠ 0 → u.busy (chan (u.ep e)) = [] ∧ u.xferWork e = false
  honest : Honest e u.log

/-- The head of the queue has been moved and no transfer or completion of it is outstanding: the
endpoint is ready to give it back. -/
structure Ready (e : EpId) (u : Udc) : Prop where
  agrees : Agrees e u 0
  busy : u.busy (chan (u.ep e)) = []
  work : u.xferWork e = false
  moved : ∀ r rest, (u.ep e).queue = r :: rest → Udc.moved r u.log = true

theorem Steady.moved_eq (h : Steady e u v) (r : ReqId) : moved r v.log = moved r u.log := by
  rw [← moved_loudLog, loudLog_congr h.log, moved_loudLog]

theorem Steady.begun_eq (h : Steady e u v) (r : ReqId) : begun e r v.log = begun e r u.log := by
  rw [← begun_xferLog, h.log, begun_xferLog]

theorem Agrees.steady (h : Agrees e u n) (hs : Steady e u v) : Agrees e v n where
  place := h.place.of_route hs.route
  single := h.single
  started := by
    simp only [hs.queue, hs.chan, hs.started, hs.begun_eq]
    exact h.started
  busy := by
    rw [hs.queue, hs.chan, hs.busy]
    exact h.busy
  work := by
    rw [hs.queue, hs.chan, hs.busy, hs.xferWork]
    intro hw
    exact ⟨(h.work hw).1, fun r rest hq => (hs.moved_eq r).trans ((h.work hw).2 r rest hq)⟩
  idle := by
    rw [hs.chan, hs.busy, hs.xferWork]
    exact h.idle
  honest := by
    rw [← honest_loudLog, loudLog_congr hs.log, honest_loudLog]
    exact h.honest

theorem Ready.steady (h : Ready e u) (hs : Steady e u v) : Ready e v where
  agrees := h.agrees.steady hs
  busy := by
    rw [hs.chan, hs.busy]
    exact h.busy
  work := by
    rw [hs.xferWork]
    exact h.work
  moved r rest := by
    rw [hs.queue, hs.moved_eq]
    exact h.moved r rest

theorem Agrees.starts (h : Agrees e u n) {r : ReqId} {rest : List ReqId}
    (hq : (u.ep e).queue = r :: rest) (hbusy : u.busy (chan (u.ep e)) = [])
    (hwork : u.xferWork e = false) (hs : Starts e r u v) : Agrees e v 0 where
  place := h.place.of_route hs.route
  single := Nat.zero_le 1
  started _ r' rest' hq' := by
    rw [hs.queue, hq] at hq'
    rw [hs.chan, hs.started]
    cases hq'
    exact ⟨rfl, hs.begun⟩
  busy := by
    right
    rw [hs.queue, hs.chan, hs.busy, hbusy]
    exact ⟨r, rfl, .inr ⟨rest, hq⟩⟩
  work hw := by
    rw [hs.xferWork, hwork] at hw
    cases hw
  idle hn := absurd rfl hn
  honest := by
    rw [← honest_loudLog, hs.log, honest_loudLog]
    exact h.honest

theorem Agrees.startNext (h : Agrees e u 1) : Agrees e (u.rtsStartNextRequest e) 0 := by
  obtain ⟨hbusy, hwork⟩ := h.idle one_ne_zero
  cases hq : (u.ep e).queue with
  | nil =>
    rw [rtsStartNextRequest_nil hq]
    refine ⟨h.place, Nat.zero_le 1, fun _ r rest hr => ?_, h.busy, h.work, fun hn => absurd rfl hn,
      h.honest⟩
    rw [hq] at hr
    cases hr
  | cons r rest => exact h.starts hq hbusy hwork (starts_rtsStartNextRequest hq)

theorem Agrees.finish (h : Agrees e u 0) {r : ReqId} {l : List ReqId}
    (hb : u.busy (chan (u.ep e)) = r :: l) : Ready e (u.finishXfer (chan (u.ep e)) r) := by
  obtain ⟨hl, hhead⟩ : l = [] ∧ ((u.ep e).queue = [] ∨ ∃ rest, (u.ep e).queue = r :: rest) := by
    rcases h.busy with hnil | ⟨r', hr', hq⟩
    · rw [hnil] at hb
      cases hb
    · rw [hr'] at hb
      cases hb
      exact ⟨rfl, hq⟩
  have hwork : u.xferWork e = false := by
    by_contra hne
    rw [(h.work (Bool.not_eq_false _ ▸ hne)).1] at hb
    cases hb
  have hbusy : (u.finishXfer (chan (u.ep e)) r).busy (chan (u.ep e)) = [] := by
    rw [finishXfer_busy_self, hb, hl]
    rfl
  have hmoved (r' : ReqId) (rest : List ReqId) (hq : (u.ep e).queue = r' :: rest) :
      moved r' (u.finishXfer (chan (u.ep e)) r).log = true := by
    rcases hhead with hnil | ⟨rest', hr⟩
    · rw [hnil] at hq
      cases hq
    · rw [hr] at hq
      cases hq
      show (r == r || moved r u.log) = true
      rw [beq_self_eq_true, Bool.true_or]
  refine ⟨⟨h.place.of_route rfl, h.single, h.started, .inl hbusy, fun hw => ?_,
    fun hn => absurd rfl hn, h.honest⟩, hbusy, hwork, hmoved⟩
  rw [show (u.finishXfer _ r).xferWork e = u.xferWork e from rfl, hwork] at hw
  cases hw

theorem Ready.queueXferWork (h : Ready e u) : Agrees e (queueXferWork e u) 0 :=
  ⟨h.agrees.place.of_route rfl, h.agrees.single, h.agrees.started, .inl h.busy,
    fun _ => ⟨h.busy, h.moved⟩, fun hn => absurd rfl hn, h.agrees.honest⟩

theorem Agrees.takeXferWork (h : Agrees e u 0) (hw : u.xferWork e = true) :
    Ready e (u.takeXferWork e) := by
  obtain ⟨hbusy, hmoved⟩ := h.work hw
  have hfalse : (u.takeXferWork e).xferWork e = false := by
    show Function.update u.xferWork e false e = false
    rw [Function.update_self]
  refine ⟨⟨h.place.of_route rfl, h.single, h.started, .inl hbusy, fun hw' => ?_,
    fun hn => absurd rfl hn, h.honest⟩, hbusy, hfalse, hmoved⟩
  rw [hfalse] at hw'
  cases hw'

/-! ### Giving back and queueing -/

theorem GivesBack.steady {r : ReqId} {status : Int} (h : GivesBack e r status u v) :
    (v.ep e).route = { (u.ep e).route with queue := (u.ep e).queue.erase r } ∧
      v.started = u.started ∧ v.busy = u.busy ∧ v.xferWork = u.xferWork ∧
      loudLog v.log = .giveback e r (u.doneStatus status) :: loudLog u.log ∧
      ∀ r', begun e r' v.log = begun e r' u.log := by
  obtain ⟨w, hw, rfl⟩ := h
  have hroute : ((u.rtsDoneUnlink e r status).ep e).route =
      { (u.ep e).route with queue := (u.ep e).queue.erase r } := by
    show (((u.listDelInit r).setEp e fun x => { x with stopped := true }).ep e).route = _
    rw [setEp_ep_self]
    rfl
  refine ⟨(hw.route e).trans hroute, hw.started, hw.busy, hw.xferWork, ?_, (hw.steady e).begun_eq⟩
  exact congrArg (.giveback e r (u.doneStatus status) :: ·) hw.silent.log

theorem Honest.of_loud_cons {a : Action} {l l' : List Action} (h : loudLog l' = a :: loudLog l)
    (ha : Honest e (a :: l)) : Honest e l' := by
  rw [← honest_loudLog, h]
  cases a with
  | giveback e' r status => exact ⟨fun he hs => (moved_loudLog r l).trans (ha.1 he hs),
      (honest_loudLog e l).mpr ha.2⟩
  | _ => exact (honest_loudLog e l).mpr ha

theorem Ready.giveBack (h : Ready e u) {r : ReqId} {rest : List ReqId}
    (hq : (u.ep e).queue = r :: rest) {status : Int} (hv : GivesBack e r status u v) :
    Agrees e v 1 := by
  obtain ⟨hroute, -, hb, hw, hlog, -⟩ := hv.steady
  have hchan : chan (v.ep e) = chan (u.ep e) := by
    show chan (v.ep e).route = chan (u.ep e).route
    rw [hroute]
    rfl
  have hbusy : v.busy (chan (v.ep e)) = [] := by rw [hchan, hb, h.busy]
  have hwork : v.xferWork e = false := by rw [hw, h.work]
  refine ⟨⟨?_, ?_, ?_⟩, Nat.le_refl 1, fun hn => absurd hn one_ne_zero, .inl hbusy, fun hw' => ?_,
    fun _ => ⟨hbusy, hwork⟩, ?_⟩
  · exact (congrArg Endpoint.epnum hroute).trans h.agrees.place.epnum
  · exact (congrArg Endpoint.dirIn hroute).trans h.agrees.place.dirIn
  · exact (congrArg Endpoint.dirOut hroute).trans h.agrees.place.dirOut
  · rw [hwork] at hw'
    cases hw'
  · exact Honest.of_loud_cons hlog ⟨fun _ _ => h.moved r rest hq, h.agrees.honest⟩

/-- Giving back a dequeued request.  If it is the head, either nothing is queued behind it or a
completion handler is about to start the next request. -/
theorem Agrees.dequeue (h : Agrees e u n) {r : ReqId} {status : Int}
    (hstatus : u.doneStatus status ≠ 0)
    (hhead : ∀ rest, (u.ep e).queue = r :: rest → rest = [] ∨ n ≠ 0)
    (hv : GivesBack e r status u v) : Agrees e v n := by
  obtain ⟨hroute, hs, hb, hw, hlog, hbegun⟩ := hv.steady
  have hqueue : (v.ep e).queue = (u.ep e).queue.erase r := congrArg Endpoint.queue hroute
  have hchan : chan (v.ep e) = chan (u.ep e) := by
    show chan (v.ep e).route = chan (u.ep e).route
    rw [hroute]
    rfl
  have hmoved (r' : ReqId) : moved r' v.log = moved r' u.log := by
    rw [← moved_loudLog r' v.log, hlog]
    exact moved_loudLog r' u.log
  -- unless a handler is about to start the next request, the head of what is left was the head
  have hkeep (hn : n = 0) (r' : ReqId) (rest' : List ReqId) (hq' : (v.ep e).queue = r' :: rest') :
      ∃ rest, (u.ep e).queue = r' :: rest := by
    rw [hqueue] at hq'
    cases hq : (u.ep e).queue with
    | nil =>
      rw [hq] at hq'
      cases hq'
    | cons s rest =>
      rw [hq] at hq'
      by_cases hsr : s = r
      · subst hsr
        rw [List.erase_cons_head] at hq'
        rcases hhead rest hq with hnil | hne
        · rw [hnil] at hq'
          cases hq'
        · exact absurd hn hne
      · rw [List.erase_cons_tail (by simpa using hsr)] at hq'
        cases hq'
        exact ⟨rest, rfl⟩
  refine ⟨⟨?_, ?_, ?_⟩, h.single, fun hn r' rest' hq' => ?_, ?_, fun hw' => ?_, fun hn => ?_, ?_⟩
  · exact (congrArg Endpoint.epnum hroute).trans h.place.epnum
  · exact (congrArg Endpoint.dirIn hroute).trans h.place.dirIn
  · exact (congrArg Endpoint.dirOut hroute).trans h.place.dirOut
  · obtain ⟨rest, hq⟩ := hkeep hn r' rest' hq'
    rw [hchan, hs, hbegun]
    exact h.started hn r' rest hq
  · rw [hchan, hb]
    by_cases hn : n = 0
    · rcases h.busy with hnil | ⟨b, hb', hq⟩
      · exact .inl hnil
      · refine .inr ⟨b, hb', ?_⟩
        cases hq' : (v.ep e).queue with
        | nil => exact .inl rfl
        | cons r' rest' =>
          obtain ⟨rest, hr⟩ := hkeep hn r' rest' hq'
          rcases hq with hnil | ⟨rest'', hr'⟩
          · rw [hnil] at hr
            cases hr
          · rw [hr'] at hr
            cases hr
            exact .inr ⟨rest', rfl⟩
    · exact .inl (h.idle hn).1
  · rw [hw] at hw'
    obtain ⟨hbusy, hmv⟩ := h.work hw'
    have hn : n = 0 := by
      by_contra hne
      rw [(h.idle hne).2] at hw'
      cases hw'
    refine ⟨by rw [hchan, hb, hbusy], fun r' rest' hq' => ?_⟩
    obtain ⟨rest, hq⟩ := hkeep hn r' rest' hq'
    rw [hmoved]
    exact hmv r' rest hq
  · rw [hchan, hb, hw]
    exact h.idle hn
  · exact Honest.of_loud_cons hlog ⟨fun _ h0 => absurd h0 hstatus, h.honest⟩

/-- A request may join a queue that is being worked on. -/
theorem Agrees.link (h : Agrees e u n) {r : ReqId} (hr : ¬ u.Linked r)
    (hn : (u.ep e).queue ≠ [] ∨ n ≠ 0) : Agrees e (u.rtsEpQueueLink e r) n := by
  have hroute : ((u.rtsEpQueueLink e r).ep e).route =
      { (u.ep e).route with queue := (u.ep e).queue ++ [r] } := by
    show ((u.setEp e fun x => { x with queue := x.queue ++ [r] }).ep e).route = _
    rw [setEp_ep_self]
    rfl
  have hqueue : ((u.rtsEpQueueLink e r).ep e).queue = (u.ep e).queue ++ [r] :=
    congrArg Endpoint.queue hroute
  have hchan : chan ((u.rtsEpQueueLink e r).ep e) = chan (u.ep e) := by
    show chan ((u.rtsEpQueueLink e r).ep e).route = chan (u.ep e).route
    rw [hroute]
    rfl
  have hkeep (hn0 : n = 0) (r' : ReqId) (rest' : List ReqId)
      (hq' : ((u.rtsEpQueueLink e r).ep e).queue = r' :: rest') :
      ∃ rest, (u.ep e).queue = r' :: rest := by
    rw [hqueue] at hq'
    cases hq : (u.ep e).queue with
    | nil => exact absurd hn0 (hn.resolve_left (fun hne => hne hq))
    | cons s rest =>
      rw [hq] at hq'
      cases hq'
      exact ⟨rest, rfl⟩
  refine ⟨⟨?_, ?_, ?_⟩, h.single, fun hn0 r' rest' hq' => ?_, ?_, fun hw => ?_, fun hn' => ?_,
    h.honest⟩
  · exact (congrArg Endpoint.epnum hroute).trans h.place.epnum
  · exact (congrArg Endpoint.dirIn hroute).trans h.place.dirIn
  · exact (congrArg Endpoint.dirOut hroute).trans h.place.dirOut
  · obtain ⟨rest, hq⟩ := hkeep hn0 r' rest' hq'
    obtain ⟨hs, hb⟩ := h.started hn0 r' rest hq
    rw [hchan]
    refine ⟨hs, ?_⟩
    show (r != r' && begun e r' u.log) = true
    rw [hb, Bool.and_true, bne_iff_ne]
    rintro rfl
    exact hr ⟨e, hq ▸ List.mem_cons_self⟩
  · rw [hchan, hqueue]
    rcases h.busy with hnil | ⟨b, hb, hq | ⟨rest, hq⟩⟩
    · exact .inl hnil
    · -- a busy channel and an empty queue: then no handler is about to start anything
      have hne := hn.resolve_left (fun hne => hne hq)
      exact .inl (h.idle hne).1
    · exact .inr ⟨b, hb, .inr ⟨rest ++ [r], by rw [hq]; rfl⟩⟩
  · obtain ⟨hbusy, hmoved⟩ := h.work hw
    have hn0 : n = 0 := by
      by_contra hne
      have hidle := (h.idle hne).2
      rw [show u.xferWork e = true from hw] at hidle
      cases hidle
    refine ⟨by rw [hchan]; exact hbusy, fun r' rest' hq' => ?_⟩
    obtain ⟨rest, hq⟩ := hkeep hn0 r' rest' hq'
    have hne : (r != r') = true := by
      rw [bne_iff_ne]
      rintro rfl
      exact hr ⟨e, hq ▸ List.mem_cons_self⟩
    show (r != r' && moved r' u.log) = true
    rw [hne, hmoved r' rest hq]
    rfl
  · rw [hchan]
    exact h.idle hn'

theorem Agrees.raise (h : Agrees e u 0) (hbusy : u.busy (chan (u.ep e)) = [])
    (hwork : u.xferWork e = false) : Agrees e u 1 :=
  ⟨h.place, Nat.le_refl 1, fun hn => absurd hn one_ne_zero, .inl hbusy, h.work,
    fun _ => ⟨hbusy, hwork⟩, h.honest⟩

/-- `rts_ep_queue` is called in a state in which a request for the empty queue gets started: by this
call, or by the completion handler whose callback this is. -/
def QueueOk (e : EpId) (u : Udc) (n : Nat) : Prop :=
  (u.ep e).queue = [] →
    if n ≠ 0 then (u.ep e).stall = true ∨ (u.ep e).stopped = true
    else (u.ep e).stall = false ∧ (u.ep e).stopped = false ∧ u.busy (chan (u.ep e)) = [] ∧
      u.xferWork e = false
  deriving Decidable

theorem Agrees.epQueue (h : Agrees e u n) (he : e ≠ ep0) {r : ReqId} (hr : ¬ u.Linked r)
    (hok : QueueOk e u n) :
    Agrees e (((u.rtsEpQueueLink e r).rtsEpQueueIrq e (u.ep e).queue.isEmpty).rtsEpQueueStart e r
      (u.ep e).queue.isEmpty) n := by
  have hq1 : Quiet (u.rtsEpQueueLink e r)
      ((u.rtsEpQueueLink e r).rtsEpQueueIrq e (u.ep e).queue.isEmpty) :=
    quiet_rtsEpQueueIrq _ e _
  generalize hv : (u.rtsEpQueueLink e r).rtsEpQueueIrq e (u.ep e).queue.isEmpty = v at hq1 ⊢
  have hhalt : (v.ep e).stall = (u.ep e).stall ∧ (v.ep e).stopped = (u.ep e).stopped := by
    have hlink : ((u.rtsEpQueueLink e r).ep e).stall = (u.ep e).stall ∧
        ((u.rtsEpQueueLink e r).ep e).stopped = (u.ep e).stopped := by
      show ((u.setEp e fun x => { x with queue := x.queue ++ [r] }).ep e).stall = _ ∧
        ((u.setEp e fun x => { x with queue := x.queue ++ [r] }).ep e).stopped = _
      rw [setEp_ep_self]
      exact ⟨rfl, rfl⟩
    exact ⟨(congrArg Endpoint.stall (hq1.core e)).trans hlink.1,
      (congrArg Endpoint.stopped (hq1.core e)).trans hlink.2⟩
  unfold rtsEpQueueStart
  dsimp only
  rw [hhalt.1, hhalt.2]
  cases hq : (u.ep e).queue with
  | cons s rest =>
    rw [if_neg (by simp)]
    refine (h.link hr (.inl ?_)).steady (hq1.steady e)
    rw [hq]
    exact List.cons_ne_nil s rest
  | nil =>
    have hcond := hok hq
    by_cases hn : n = 0
    · subst hn
      rw [if_neg (by decide)] at hcond
      obtain ⟨hst, hsp, hbusy, hwork⟩ := hcond
      have hagree : Agrees e v 1 :=
        ((h.raise hbusy hwork).link hr (.inr one_ne_zero)).steady (hq1.steady e)
      have hqv : (v.ep e).queue = r :: [] := by
        rw [hq1.silent.queue e]
        show ((u.setEp e fun x => { x with queue := x.queue ++ [r] }).ep e).queue = _
        rw [setEp_ep_self, hq]
        rfl
      obtain ⟨hbv, hwv⟩ := hagree.idle one_ne_zero
      rw [hst, hsp, if_pos (by decide), hagree.place.usesDma_eq he]
      by_cases hx : usesIntr (v.ep e) = true
      · rw [hx, if_neg (by decide), if_pos rfl]
        exact hagree.starts hqv hbv hwv (starts_rtsStartIntrTransfer hx r)
      · rw [Bool.not_eq_true] at hx
        rw [hx, if_pos (by decide)]
        exact hagree.starts hqv hbv hwv (starts_rtsStartDmaTransfer hx r)
    · rw [if_pos hn] at hcond
      have hoff : ¬ (([] : List ReqId).isEmpty && !(u.ep e).stall && !(u.ep e).stopped) = true := by
        rcases hcond with hst | hsp
        · rw [hst]; simp
        · rw [hsp]; simp
      rw [if_neg hoff]
      exact (h.link hr (.inr hn)).steady (hq1.steady e)

end Udc

namespace Machine

open Runs Udc

variable {m n : Machine} {e : EpId}

/-- The number of completion handlers of the endpoint that are inside their callback. -/
def completions (e : EpId) (ts : List Task) : Nat := ts.countP (isCallback e .startNext)

theorem isCallback_self (e : EpId) (r : ReqId) (stopped : Bool) (k : Cont) :
    isCallback e k (.giveback e r stopped k) = true := by
  simp [isCallback]

theorem completing_iff : m.Completing e ↔ completions e m.tasks ≠ 0 := by
  unfold completions
  rw [← Nat.pos_iff_ne_zero, List.countP_pos_iff]
  constructor
  · rintro ⟨r, s, hmem⟩
    exact ⟨_, hmem, isCallback_self e r s _⟩
  · rintro ⟨t, hmem, ht⟩
    cases t with
    | giveback e' r s k =>
      obtain ⟨rfl, rfl⟩ : e' = e ∧ k = .startNext := by simpa [isCallback] using ht
      exact ⟨r, s, hmem⟩
    | uvcZero e' => cases ht
    | setup => cases ht

theorem completions_eq_zero (hidle : ¬ m.Completing e) : completions e m.tasks = 0 := by
  by_contra hne
  exact hidle (completing_iff.mpr hne)

/-- The machine as the events of one endpoint leave it. -/
structure Working (e : EpId) (m : Machine) : Prop where
  agrees : Agrees e m.udc (completions e m.tasks)
  tasks : ∀ t ∈ m.tasks, ∃ r s k, t = .giveback e r s k ∧ (k = .ret ∨ k = .startNext)

theorem Working.of_udc {v : Udc} (h : m.Working e) (hv : Agrees e v (completions e m.tasks)) :
    Working e { m with udc := v } :=
  ⟨hv, h.tasks⟩

theorem Working.complete (h : m.Working e) (hidle : ¬ m.Completing e) {v : Udc} (hv : Ready e v)
    {r : ReqId} {rest : List ReqId} (hq : (v.ep e).queue = r :: rest) {status : Int}
    (hn : Enters { m with udc := v } e r status .startNext n) : n.Working e := by
  obtain ⟨w, hw, rfl⟩ := hn
  have hzero := completions_eq_zero hidle
  refine ⟨?_, fun t ht => ?_⟩
  · show Agrees e w (List.countP _ (_ :: m.tasks))
    rw [List.countP_cons_of_pos (isCallback_self e r _ _)]
    show Agrees e w (completions e m.tasks + 1)
    rw [hzero]
    exact hv.giveBack hq hw
  · rcases List.mem_cons.mp ht with rfl | hmem
    · exact ⟨r, _, _, rfl, .inr rfl⟩
    · exact h.tasks t hmem

/-- The completion work gives the head of the queue back. -/
theorem Working.xferProcess (h : m.Working e) (he : e ≠ ep0) (hidle : ¬ m.Completing e) {v : Udc}
    (hv : Ready e v) (dmaout : UInt32) : (xferProcess { m with udc := v } e dmaout).Working e := by
  have hzero := completions_eq_zero hidle
  have hstay {w : Udc} (hw : Agrees e w 0) : Working e { m with udc := w } :=
    h.of_udc (hzero ▸ hw)
  have hdone {w : Udc} (hw : Quiet v w) {r : ReqId} {rest : List ReqId}
      (hq : (v.ep e).queue = r :: rest) :
      (enterDone { m with udc := w } e r 0 .startNext).Working e :=
    h.complete hidle (hv.steady (hw.steady e)) ((hw.silent.queue e).trans hq)
      (enters_enterDone _ e r 0 .startNext)
  unfold Machine.xferProcess
  split
  · next k =>
    split
    · next h7 =>
      unfold Machine.intrProcess
      split
      · exact hstay hv.agrees
      · next r rest hq =>
        dsimp only at hq ⊢
        have hadv := quiet_intrAdvance v (.epIn k) r
        split
        · split
          · exact hdone hadv hq
          · -- the next packet of the same request
            have hready := hv.steady (hadv.steady _)
            have hintr : usesIntr ((v.intrAdvance (.epIn k) r).ep (.epIn k)) = true := by
              unfold usesIntr
              rw [hready.agrees.place.epnum, hready.agrees.place.dirIn]
              exact Bool.and_eq_true_iff.mpr ⟨decide_eq_true h7, rfl⟩
            exact hstay (hready.agrees.starts ((hadv.silent.queue _).trans hq) hready.busy
              hready.work (starts_rtsStartIntrTransfer hintr r))
        · exact hstay hv.agrees
    · split
      · unfold Machine.uacInProcess
        split
        · exact hstay hv.agrees
        · next r rest hq => exact hdone (quiet_rtsInComplete v _ r) hq
      · exact hstay hv.queueXferWork
  · unfold Machine.outProcess
    split
    · exact hstay hv.agrees
    · next r rest hq => exact hdone (quiet_rtsTransferComplete v _ r dmaout) hq

theorem Working.wqProcess (h : m.Working e) (hidle : ¬ m.Completing e) {v : Udc}
    (hv : Ready e v) : (wqProcess { m with udc := v } e).Working e := by
  unfold Machine.wqProcess
  split
  · exact h.of_udc (completions_eq_zero hidle ▸ hv.agrees)
  · next r rest hq =>
    have hw := quiet_rtsInComplete v e r
    exact h.complete hidle (hv.steady (hw.steady e)) ((hw.silent.queue e).trans hq)
      (enters_enterDoneWq _ e r 0 .startNext)

theorem completions_eraseIdx {ts : List Task} {i : Nat} {t : Task} (h : ts[i]? = some t) :
    completions e ts = completions e (ts.eraseIdx i) + if isCallback e .startNext t then 1 else 0 :=
  countP_eraseIdx h _

theorem Working.resume (h : m.Working e) {i : Nat} {t : Task} (ht : m.tasks[i]? = some t)
    (answer : Int) : (resumeTask { m with tasks := m.tasks.eraseIdx i } t answer).Working e := by
  have hrest (t' : Task) (ht' : t' ∈ m.tasks.eraseIdx i) :
      ∃ r s k, t' = .giveback e r s k ∧ (k = .ret ∨ k = .startNext) :=
    h.tasks t' (List.mem_of_mem_eraseIdx ht')
  have hcount := completions_eraseIdx (e := e) ht
  obtain ⟨r, s, k, rfl, hk⟩ := h.tasks t (List.mem_of_getElem? ht)
  have hleave := h.agrees.steady (steady_rtsDoneLeave m.udc e s)
  rcases hk with rfl | rfl
  · rw [if_neg (by simp [isCallback]), Nat.add_zero] at hcount
    exact ⟨hcount ▸ hleave, hrest⟩
  · rw [if_pos (isCallback_self e r s _)] at hcount
    have hsingle := h.agrees.single
    have hzero : completions e (m.tasks.eraseIdx i) = 0 := by omega
    rw [hcount, hzero] at hleave
    refine ⟨?_, hrest⟩
    show Agrees e ((m.udc.rtsDoneLeave e s).rtsStartNextRequest e)
      (completions e (m.tasks.eraseIdx i))
    rw [hzero]
    exact hleave.startNext

/-! ## Runs -/

/-- The event is a call for the endpoint, a completion of it, or the return of a callback. -/
def Concerns (e : EpId) : Ev → Prop
  | .queue e' _ _ => e' = e
  | .dequeue e' _ => e' = e
  | .setHalt e' _ _ => e' = e
  | .xferIrq e' _ => e' = e
  | .xferWork e' => e' = e
  | .resume _ _ => True
  | _ => False

/-- A request is queued on the empty queue only when it gets started, and the head of the queue is
dequeued only if nothing is queued behind it or a completion handler is about to start the next. -/
def ChannelOk (e : EpId) (m : Machine) : Ev → Prop
  | .queue _ _ _ => QueueOk e m.udc (completions e m.tasks)
  | .dequeue _ r => (m.udc.ep e).queue.head? = some r → (m.udc.ep e).queue = [r] ∨ m.Completing e
  | _ => True

instance (m : Machine) : ∀ ev, Decidable (ChannelOk e m ev)
  | .queue .. => inferInstanceAs (Decidable (QueueOk e m.udc (completions e m.tasks)))
  | .dequeue _ r => inferInstanceAs (Decidable ((m.udc.ep e).queue.head? = some r →
      (m.udc.ep e).queue = [r] ∨ m.Completing e))
  | .setHalt .. | .disable _ | .enable .. | .xferIrq .. | .xferWork _ | .uvcDoneWork _
  | .setup .. | .ep0Irq | .resume .. => isTrue trivial

/-- **One step** of a run that meets the condition keeps the invariant. -/
theorem Working.step (h : m.Working e) (he : e ≠ ep0) {ev : Ev} (hev : Concerns e ev)
    (hok : ChannelOk e m ev) (hn : m.step ev = some n) : n.Working e := by
  cases ev with
  | queue e' r length =>
    obtain rfl : e' = e := hev
    obtain ⟨hr, rfl⟩ := step_queue hn
    have hset := quiet_setReq m.udc r fun q => { q with length := length }
    have hagree := h.agrees.steady (hset.steady e')
    have hnum : ((m.udc.setReq r fun q => { q with length := length }).ep e').epnum ≠ 0 := by
      rw [hagree.place.epnum]
      exact num_ne_zero he
    unfold Machine.epQueue
    dsimp only
    rw [if_neg hnum]
    exact h.of_udc (hagree.epQueue he hr hok)
  | dequeue e' r =>
    obtain rfl : e' = e := hev
    obtain rfl := Option.some.inj hn
    split
    · obtain ⟨w, hw, hn⟩ := enters_enterDone m e' r (-ECONNRESET) .ret
      rw [hn]
      refine ⟨?_, fun t ht => ?_⟩
      · show Agrees e' w (List.countP _ (_ :: m.tasks))
        rw [List.countP_cons_of_neg (by simp [isCallback])]
        refine h.agrees.dequeue ?_ (fun rest hq => ?_) hw
        · unfold doneStatus
          split <;> decide
        · rcases hok (by rw [hq]; rfl) with hsole | hcompl
          · rw [hq] at hsole
            exact .inl (List.cons_inj_right r |>.mp hsole)
          · exact .inr (completing_iff.mp hcompl)
      · rcases List.mem_cons.mp ht with rfl | hmem
        · exact ⟨r, _, _, rfl, .inl rfl⟩
        · exact h.tasks t hmem
    · exact h
  | setHalt e' value wedge =>
    obtain rfl : e' = e := hev
    cases hn
    exact h.of_udc (h.agrees.steady (steady_setHaltAndWedge m.udc e' value wedge))
  | xferIrq e' dmaout =>
    obtain rfl : e' = e := hev
    obtain ⟨r, l, hb, ⟨-, -, hfree⟩, rfl⟩ := step_xferIrq hn
    have hagree := h.agrees
    rw [completions_eq_zero hfree] at hagree
    exact h.xferProcess he hfree (hagree.finish hb) dmaout
  | xferWork e' =>
    obtain rfl : e' = e := hev
    obtain ⟨⟨hwork, hfree⟩, rfl⟩ := step_xferWork hn
    have hagree := h.agrees
    rw [completions_eq_zero hfree] at hagree
    exact h.wqProcess hfree (hagree.takeXferWork hwork)
  | resume i answer =>
    obtain ⟨t, ht, rfl⟩ := step_resume hn
    exact h.resume ht answer
  | disable e' => exact hev.elim
  | enable e' desc => exact hev.elim
  | uvcDoneWork e' => exact hev.elim
  | setup hs ctrl => exact hev.elim
  | ep0Irq => exact hev.elim

/-- An endpoint that has been enabled and not used yet. -/
structure Opened (e : EpId) (m : Machine) : Prop where
  ne : e ≠ ep0
  enabled : (m.udc.ep e).epEnable = true
  place : InPlace e m.udc
  queue : (m.udc.ep e).queue = []
  busy : m.udc.busy (chan (m.udc.ep e)) = []
  work : m.udc.xferWork e = false
  tasks : m.tasks = []
  honest : Honest e m.udc.log

theorem Opened.working (h : m.Opened e) : m.Working e := by
  refine ⟨⟨h.place, ?_, fun _ r rest hq => ?_, .inl h.busy, fun hw => ?_, fun hn => ?_, h.honest⟩,
    fun t ht => ?_⟩
  · rw [h.tasks]
    exact Nat.zero_le 1
  · rw [h.queue] at hq
    cases hq
  · rw [h.work] at hw
    cases hw
  · exact ⟨h.busy, h.work⟩
  · rw [h.tasks] at ht
    cases ht

/-- What completion by the head of the queue rests on.

* `started`: outside of completion callbacks, the transfer started last on the channel is the one of
  the head of the queue.
* `begun`: it was started after that request had been queued, so a non-empty queue is never without
  a transfer of its own.
* `honest`: a request given back with status 0 had been moved by the hardware since it was
  queued. -/
structure Agreement (e : EpId) (m : Machine) : Prop where
  started : (∀ t ∈ m.tasks, t.isGiveback = false) → ∀ r rest, (m.udc.ep e).queue = r :: rest →
    m.udc.started (chan (m.udc.ep e)) = some r
  begun : (∀ t ∈ m.tasks, t.isGiveback = false) → ∀ r rest, (m.udc.ep e).queue = r :: rest →
    begun e r m.udc.log = true
  honest : ∀ newer older r, m.udc.log = newer ++ .giveback e r 0 :: older → moved r older = true

theorem Working.completions_eq (h : m.Working e) (hidle : ∀ t ∈ m.tasks, t.isGiveback = false) :
    completions e m.tasks = 0 := by
  unfold completions
  rw [List.countP_eq_zero]
  intro t ht hcall
  obtain ⟨r', s, k, rfl, -⟩ := h.tasks t ht
  have hfalse := hidle _ ht
  cases hfalse

theorem Working.agreement (h : m.Working e) : m.Agreement e where
  started hidle r rest hq := (h.agrees.started (h.completions_eq hidle) r rest hq).1
  begun hidle r rest hq := (h.agrees.started (h.completions_eq hidle) r rest hq).2
  honest newer older r hlog := by
    have hhonest := h.agrees.honest
    rw [hlog] at hhonest
    exact hhonest.of_append.1 rfl rfl

/-- **Agreement of queue and hardware.**  In every run of an opened endpoint in which requests are
queued and dequeued only as `ChannelOk` says, every state has `Agreement`. -/
theorem agreement_of_channelOk {m₀ m : Machine} {evs : List Ev} (hopen : m₀.Opened e)
    (hevs : ∀ ev ∈ evs, Concerns e ev) (hok : Along step (ChannelOk e) m₀ evs)
    (hrun : exec step m₀ evs = some m) : m.Agreement e := by
  have hboth : Along step (fun m ev => Concerns e ev ∧ ChannelOk e m ev) m₀ evs :=
    hok.and_mem hevs
  exact (exec_invariant (fun _ _ _ h hC hs => Working.step h hopen.ne hC.1 hC.2 hs)
    hopen.working hboth hrun).agreement

theorem opened_rtsEpEnable {u : Udc} {desc : EpDesc} (he : e ≠ ep0)
    (hnum : usbEndpointNum desc = e.num) (hdir : usbEndpointDirIn desc = e.isIn)
    (hret : (u.rtsEpEnable e desc).1 = 0) (hqueue : (u.ep e).queue = [])
    (hbusy : ∀ c, u.busy c = []) (hwork : u.xferWork e = false) (hlog : Honest e u.log) :
    Opened e ⟨(u.rtsEpEnable e desc).2, []⟩ := by
  obtain ⟨hlocal, hepnum⟩ := rtsEpEnable_local u e desc
  obtain ⟨hen, hin, hout, -⟩ := rtsEpEnable_ok (hnum ▸ num_ne_zero he) hret
  refine ⟨he, hen, ⟨hepnum.trans hnum, hin.trans hdir, ?_⟩, hlocal.queue.trans hqueue, ?_, ?_, rfl,
    ?_⟩
  · rw [hout, usbEndpointDirOut_eq, hdir]
  · show (u.rtsEpEnable e desc).2.busy _ = []
    rw [hlocal.busy, hbusy]
  · show (u.rtsEpEnable e desc).2.xferWork e = false
    rw [hlocal.xferWork, hwork]
  · show Honest e (u.rtsEpEnable e desc).2.log
    rw [← honest_loudLog, loudLog_congr hlocal.log, honest_loudLog]
    exact hlog

/-- The bulk endpoint `ep2out`, enabled. -/
def openBulkOut : Machine := ⟨(addressed.rtsEpEnable (.epOut 1) bulkOutDesc).2, []⟩

theorem opened_openBulkOut : Opened (.epOut 1) openBulkOut :=
  opened_rtsEpEnable (by decide) (by decide) (by decide) (by decide) rfl (fun _ => rfl) rfl trivial

/-- Two requests on `ep2out`: the second is dequeued while it waits, the first completes. -/
def dequeueWaiting : List Ev :=
  [.queue (.epOut 1) 1 512, .queue (.epOut 1) 2 512, .dequeue (.epOut 1) 2, .resume 0 0,
    .xferIrq (.epOut 1) 512, .queue (.epOut 1) 3 512, .resume 0 0]

theorem agreement_dequeueWaiting :
    ∃ m, exec step openBulkOut dequeueWaiting = some m ∧ m.Agreement (.epOut 1) := by
  obtain ⟨m, hm⟩ : ∃ m, exec step openBulkOut dequeueWaiting = some m :=
    Option.isSome_iff_exists.mp (by decide +kernel)
  refine ⟨m, hm, agreement_of_channelOk opened_openBulkOut ?_ (by decide +kernel) hm⟩
  simp [dequeueWaiting, Concerns]

/-- Two requests on `ep2out`: the first is dequeued while it is transferred. -/
def dequeueInFlight : List Ev :=
  [.queue (.epOut 1) 1 512, .queue (.epOut 1) 2 512, .dequeue (.epOut 1) 1, .resume 0 0]

/-- **The first hole.**  After `dequeueInFlight` the endpoint is neither stalled nor stopped, the
second request is the head of the queue, and the transfer on the channel is the first request's.
The interrupt for that transfer then gives the second one back with status 0. -/
theorem not_agreement_dequeueInFlight :
    ∃ m m', Opened (.epOut 1) openBulkOut ∧ (∀ ev ∈ dequeueInFlight, Concerns (.epOut 1) ev) ∧
      exec step openBulkOut dequeueInFlight = some m ∧ m.tasks = [] ∧
      (m.udc.ep (.epOut 1)).stall = false ∧ (m.udc.ep (.epOut 1)).stopped = false ∧
      (m.udc.ep (.epOut 1)).queue = [2] ∧ m.udc.started (chan (m.udc.ep (.epOut 1))) = some 1 ∧
      ¬ m.Agreement (.epOut 1) ∧
      exec step openBulkOut (dequeueInFlight ++ [.xferIrq (.epOut 1) 512]) = some m' ∧
      loudLog m'.udc.log = [.giveback (.epOut 1) 2 0, .xferDone 1,
        .giveback (.epOut 1) 1 (-ECONNRESET), .queued (.epOut 1) 2, .queued (.epOut 1) 1] := by
  have hend : (exec step openBulkOut dequeueInFlight).map (fun m =>
      (m.tasks, (m.udc.ep (.epOut 1)).stall, (m.udc.ep (.epOut 1)).stopped,
        (m.udc.ep (.epOut 1)).queue, m.udc.started (chan (m.udc.ep (.epOut 1))))) =
      some ([], false, false, [2], some 1) := by
    decide +kernel
  obtain ⟨m, hm, hvals⟩ := Option.map_eq_some_iff.mp hend
  simp only [Prod.mk.injEq] at hvals
  obtain ⟨htasks, hstall, hstopped, hqueue, hstarted⟩ := hvals
  have hirq : (exec step openBulkOut (dequeueInFlight ++ [.xferIrq (.epOut 1) 512])).map
      (fun m => loudLog m.udc.log) = some [.giveback (.epOut 1) 2 0, .xferDone 1,
        .giveback (.epOut 1) 1 (-ECONNRESET), .queued (.epOut 1) 2, .queued (.epOut 1) 1] := by
    decide +kernel
  obtain ⟨m', hm', hlog⟩ := Option.map_eq_some_iff.mp hirq
  refine ⟨m, m', opened_openBulkOut, by simp [dequeueInFlight, Concerns], hm, htasks, hstall,
    hstopped, hqueue, hstarted, fun hagree => ?_, hm', hlog⟩
  have hhead := hagree.started (by rw [htasks]; simp) 2 [] hqueue
  rw [hstarted] at hhead
  cases hhead

end Machine
end RealtekIpcam
