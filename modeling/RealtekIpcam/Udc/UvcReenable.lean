import RealtekIpcam.Udc.Enable
import RealtekIpcam.Udc.Setup

/-!
# Enabling a UVC endpoint again

Disabling `ep5in` or `ep6in` only queues the work `rts_done_uvc_in_disable`, which gives the queue
back and clears the fields of the endpoint when it runs.  Nothing cancels the work or waits for it
when the endpoint is enabled again, so it can run after the enable: it then gives back the requests
queued since and takes the endpoint away.

`Undisturbed e u v` says that an operation keeps what an enable of `e` has set, and
`step_undisturbed` that every step does which is not about disabling `e`.  An enable that meets
`EnableOk`, which is that no earlier disable of the endpoint is still under way, is therefore good
until the next disable: `uvc_kept_of_enableOk`.
-/

namespace RealtekIpcam
namespace Udc

/-- An enabled endpoint has the number of its slot, any other endpoint may have none. -/
def Numbered (u : Udc) : Prop := ∀ e, (u.ep e).epnum = 0 ∨ (u.ep e).epnum = e.num

/-- The action gives back a request of `e` with `-ECONNRESET`. -/
def isReset (e : EpId) : Action → Bool
  | .giveback e' _ status => e' = e ∧ status = -ECONNRESET
  | _ => false

/-- The requests of `e` that were given back with `-ECONNRESET`. -/
def resets (e : EpId) (log : List Action) : List Action := log.filter (isReset e)

theorem resets_loudLog (e : EpId) (log : List Action) : resets e (loudLog log) = resets e log := by
  unfold resets loudLog
  rw [List.filter_filter]
  refine List.filter_congr fun a _ => ?_
  cases a with
  | giveback e' r status => exact Bool.and_true _
  | _ => rfl

theorem resets_cons_of_not {e : EpId} {a : Action} (h : isReset e a = false) (log : List Action) :
    resets e (a :: log) = resets e log :=
  List.filter_cons_of_neg (by rw [h]; exact nofun)

/-- The number, the channel and the enable flag of `e` stay, its flush work is not queued, and no
request of it is given back with `-ECONNRESET`. -/
structure Undisturbed (e : EpId) (u v : Udc) : Prop where
  numbered : Numbered u → Numbered v
  epnum : (v.ep e).epnum = (u.ep e).epnum
  mcnum : (v.ep e).mcnum = (u.ep e).mcnum
  epEnable : (v.ep e).epEnable = (u.ep e).epEnable
  doneWork : v.doneWork e = u.doneWork e
  resets : resets e v.log = resets e u.log

variable {u v w : Udc} {e : EpId}

theorem Undisturbed.refl (e : EpId) (u : Udc) : Undisturbed e u u :=
  ⟨id, rfl, rfl, rfl, rfl, rfl⟩

theorem Undisturbed.trans (h : Undisturbed e u v) (k : Undisturbed e v w) :
    Undisturbed e u w where
  numbered := k.numbered ∘ h.numbered
  epnum := k.epnum.trans h.epnum
  mcnum := k.mcnum.trans h.mcnum
  epEnable := k.epEnable.trans h.epEnable
  doneWork := k.doneWork.trans h.doneWork
  resets := k.resets.trans h.resets

theorem Silent.undisturbed (h : Silent u v) (e : EpId) : Undisturbed e u v where
  numbered hnum e' := by
    rw [h.epnum]
    exact hnum e'
  epnum := h.epnum e
  mcnum := h.mcnum e
  epEnable := h.epEnable e
  doneWork := by rw [h.doneWork]
  resets := by rw [← resets_loudLog e v.log, h.log, resets_loudLog]

theorem Quiet.undisturbed (h : Quiet u v) (e : EpId) : Undisturbed e u v := h.silent.undisturbed e

theorem undisturbed_of_log {a : Action} (hep : v.ep = u.ep) (hwork : v.doneWork = u.doneWork)
    (hlog : v.log = a :: u.log) (ha : isReset e a = false) : Undisturbed e u v where
  numbered hnum := by
    unfold Numbered
    rw [hep]
    exact hnum
  epnum := by rw [hep]
  mcnum := by rw [hep]
  epEnable := by rw [hep]
  doneWork := by rw [hwork]
  resets := by rw [hlog, resets_cons_of_not ha]

theorem undisturbed_setEp {f : Endpoint → Endpoint} (e' : EpId)
    (hnum : ∀ x, (f x).epnum = x.epnum) (hmc : ∀ x, (f x).mcnum = x.mcnum)
    (hen : ∀ x, (f x).epEnable = x.epEnable) : Undisturbed e u (u.setEp e' f) where
  numbered hu e'' := by
    rw [setEp_apply (p := Endpoint.epnum) hnum]
    exact hu e''
  epnum := setEp_apply (p := Endpoint.epnum) hnum u e' e
  mcnum := setEp_apply (p := Endpoint.mcnum) hmc u e' e
  epEnable := setEp_apply (p := Endpoint.epEnable) hen u e' e
  doneWork := rfl
  resets := rfl

/-! ## Operations -/

theorem undisturbed_rtsStartEp0Transfer (e e' : EpId) (r : ReqId) (u : Udc) :
    Undisturbed e u (u.rtsStartEp0Transfer e' r) := by
  unfold rtsStartEp0Transfer
  dsimp only
  split
  · exact (quiet_setReq u r _).undisturbed e |>.trans (undisturbed_of_log rfl rfl rfl rfl)
  · exact undisturbed_of_log rfl rfl rfl rfl

theorem undisturbed_ep0Advance (e e' : EpId) (r : ReqId) (u : Udc) :
    Undisturbed e u (u.ep0Advance e' r) := by
  unfold ep0Advance
  dsimp only
  split
  · exact (quiet_setReq u r _).undisturbed e |>.trans (undisturbed_of_log rfl rfl rfl rfl)
  · exact Undisturbed.refl e u

theorem undisturbed_rtsEpQueueLink (e e' : EpId) (r : ReqId) (u : Udc) :
    Undisturbed e u (u.rtsEpQueueLink e' r) := by
  have hlink : Undisturbed e u (u.listAddTail e' r) :=
    undisturbed_setEp e' (fun _ => rfl) (fun _ => rfl) (fun _ => rfl)
  have hrest : Undisturbed e (u.listAddTail e' r) (u.rtsEpQueueLink e' r) :=
    undisturbed_of_log rfl rfl rfl rfl
  exact hlink.trans hrest

theorem undisturbed_finishXfer (e : EpId) (c : Chan) (r : ReqId) (u : Udc) :
    Undisturbed e u (u.finishXfer c r) :=
  undisturbed_of_log rfl rfl rfl rfl

theorem undisturbed_readSetup (e : EpId) (ctrl : SetupPacket) (u : Udc) :
    Undisturbed e u (u.readSetup ctrl) :=
  undisturbed_of_log rfl rfl rfl rfl

theorem undisturbed_rtsDoneLeave (e e' : EpId) (stopped : Bool) (u : Udc) :
    Undisturbed e u (u.rtsDoneLeave e' stopped) := by
  unfold rtsDoneLeave
  dsimp only
  refine Undisturbed.trans (v := if u.requestPending > 0 then
    { u with requestPending := u.requestPending - 1 } else u) ?_
    (undisturbed_setEp e' (fun _ => rfl) (fun _ => rfl) (fun _ => rfl))
  split
  · exact ⟨id, rfl, rfl, rfl, rfl, rfl⟩
  · exact Undisturbed.refl e u

theorem GivesBack.undisturbed {e' : EpId} {r : ReqId} {status : Int}
    (h : GivesBack e' r status u v) (hne : e' ≠ e ∨ status = 0) : Undisturbed e u v := by
  obtain ⟨w, hw, rfl⟩ := h
  have hunlink : Undisturbed e u (u.rtsDoneUnlink e' r status) := by
    have hdel : Undisturbed e u (u.listDelInit r) := ⟨id, rfl, rfl, rfl, rfl, rfl⟩
    have hstop : Undisturbed e (u.listDelInit r)
        ((u.listDelInit r).setEp e' fun x => { x with stopped := true }) :=
      undisturbed_setEp e' (fun _ => rfl) (fun _ => rfl) (fun _ => rfl)
    have hreq : Undisturbed e ((u.listDelInit r).setEp e' fun x => { x with stopped := true })
        (u.rtsDoneUnlink e' r status) :=
      (quiet_setReq _ r fun q => { q with status := u.doneStatus status }).undisturbed e
    exact (hdel.trans hstop).trans hreq
  have hreset : isReset e (.giveback e' r (u.doneStatus status)) = false := by
    rcases hne with hne | rfl
    · simp [isReset, hne]
    · have h0 : u.doneStatus 0 ≠ -ECONNRESET := by
        unfold doneStatus
        split <;> decide
      simp [isReset, h0]
  exact (hunlink.trans (hw.undisturbed e)).trans (undisturbed_of_log rfl rfl rfl hreset)

theorem undisturbed_clearEp {e' : EpId} (hne : e' ≠ e) (u : Udc) :
    Undisturbed e u (u.clearEp e') := by
  have hself : ((u.clearEp e').ep e) = u.ep e := setEp_ep_of_ne (Ne.symm hne) _
  refine ⟨fun hnum e'' => ?_, by rw [hself], by rw [hself], by rw [hself], rfl, rfl⟩
  unfold clearEp
  rw [setEp_ep]
  split
  · exact .inl rfl
  · exact hnum e''

theorem undisturbed_rtsEpEnable {e' : EpId} (hne : e' ≠ e) {desc : EpDesc}
    (hdesc : usbEndpointNum desc = e'.num) (u : Udc) :
    Undisturbed e u (u.rtsEpEnable e' desc).2 := by
  obtain ⟨hlocal, hself⟩ := rtsEpEnable_local u e' desc
  obtain ⟨hnum', hmc, hen⟩ := Endpoint.identity_of_core (hlocal.other e (Ne.symm hne))
  refine ⟨fun hnum e'' => ?_, hnum', hmc, hen, by rw [hlocal.doneWork], ?_⟩
  · by_cases he : e'' = e'
    · subst he
      exact .inr (hself.trans hdesc)
    · rw [(Endpoint.identity_of_core (hlocal.other e'' he)).1]
      exact hnum e''
  · rw [← resets_loudLog, loudLog_congr hlocal.log, resets_loudLog]

theorem uvcSlot_of_num {e' : EpId} (h : isUvcNum e'.num = true) : uvcSlot e'.num = e' := by
  have h56 : e'.num = 5 ∨ e'.num = 6 := by simpa [isUvcNum] using h
  cases e' with
  | epIn k =>
    rcases h56 with h5 | h6
    · rw [h5]
      exact congrArg EpId.epIn (Fin.ext h5.symm)
    · rw [h6]
      exact congrArg EpId.epIn (Fin.ext h6.symm)
  | epOut k =>
    have hk : k.val + 1 = 5 ∨ k.val + 1 = 6 := h56
    omega

theorem undisturbed_rtsEpDisableBegin {e' : EpId} (hne : e' ≠ e) (hu : Numbered u) :
    Undisturbed e u (u.rtsEpDisableBegin e') := by
  obtain ⟨hother, hself, -, hlog, hwork⟩ := rtsEpDisableBegin_local u e'
  obtain ⟨hnum', hmc, hen⟩ := Endpoint.identity_of_core (hother e (Ne.symm hne))
  refine ⟨fun hnum e'' => ?_, hnum', hmc, hen, ?_, ?_⟩
  · by_cases he : e'' = e'
    · subst he
      rw [hself]
      exact hnum e''
    · rw [(Endpoint.identity_of_core (hother e'' he)).1]
      exact hnum e''
  · rw [hwork]
    split
    · next huvc =>
      -- the work that is queued belongs to the endpoint of that number, which is `e'`
      rcases hu e' with h0 | hn
      · rw [h0] at huvc
        cases huvc
      · rw [hn] at huvc ⊢
        rw [uvcSlot_of_num huvc]
        exact Function.update_of_ne (Ne.symm hne) true u.doneWork
    · rfl
  · rw [← resets_loudLog, hlog, resets_loudLog]

end Udc

namespace Machine

open Runs Udc

variable {m n : Machine} {e : EpId}

/-! ## Steps -/

/-- The task will give back requests of `e` with `-ECONNRESET` or clear its fields. -/
def threatens (e : EpId) : Task → Bool
  | .giveback e' _ _ k => e' = e ∧ (k = .disable ∨ k = .uvcDone)
  | .uvcZero e' => e' = e
  | .setup => false

/-- The endpoint is not disturbed, and no task is added that threatens it. -/
structure Spared (e : EpId) (m n : Machine) : Prop where
  udc : Undisturbed e m.udc n.udc
  tasks : ∀ t ∈ n.tasks, t ∈ m.tasks ∨ threatens e t = false

theorem Spared.trans {p : Machine} (h : Spared e m n) (k : Spared e n p) : Spared e m p := by
  refine ⟨h.udc.trans k.udc, fun t ht => ?_⟩
  rcases k.tasks t ht with hmem | hnot
  · exact h.tasks t hmem
  · exact .inr hnot

theorem spared_udc {v : Udc} (h : Undisturbed e m.udc v) : Spared e m { m with udc := v } :=
  ⟨h, fun _ ht => .inl ht⟩

theorem Enters.spared {e' : EpId} {r : ReqId} {status : Int} {k : Cont}
    (h : m.Enters e' r status k n) (hne : e' ≠ e ∨ status = 0)
    (hk : threatens e (.giveback e' r (m.udc.ep e').stopped k) = false) : Spared e m n := by
  obtain ⟨v, hv, rfl⟩ := h
  refine ⟨hv.undisturbed hne, fun t ht => ?_⟩
  rcases List.mem_cons.mp ht with rfl | hmem
  · exact .inr hk
  · exact .inl hmem

theorem spared_complete {v : Udc} (hv : Undisturbed e m.udc v) (e' : EpId) (r : ReqId) {k : Cont}
    (hk : k ≠ .disable ∧ k ≠ .uvcDone) :
    Spared e m (enterDone { m with udc := v } e' r 0 k) :=
  (spared_udc hv).trans <|
    (enters_enterDone _ e' r 0 k).spared (.inr rfl) (by simp [threatens, hk.1, hk.2])

theorem spared_disableLoop {e' : EpId} (hne : e' ≠ e) : Spared e m (m.disableLoop e') := by
  unfold Machine.disableLoop
  split
  · split
    · exact spared_udc (Undisturbed.refl e m.udc)
    · exact spared_udc (undisturbed_clearEp hne m.udc)
  · exact (enters_enterDone m e' _ _ .disable).spared (.inl hne) (by simp [threatens, hne])

theorem spared_uvcDoneLoop {e' : EpId} (hne : e' ≠ e) : Spared e m (m.uvcDoneLoop e') := by
  unfold Machine.uvcDoneLoop
  split
  · refine ⟨Undisturbed.refl e m.udc, fun t ht => ?_⟩
    rcases List.mem_cons.mp ht with rfl | hmem
    · exact .inr (by simp [threatens, hne])
    · exact .inl hmem
  · exact (enters_enterDoneWq m e' _ _ .uvcDone).spared (.inl hne) (by simp [threatens, hne])

theorem spared_epQueue (e' : EpId) (r : ReqId) : Spared e m (m.epQueue e' r) := by
  have hlink := undisturbed_rtsEpQueueLink e e' r m.udc
  unfold Machine.epQueue
  dsimp only
  split
  · split
    · exact spared_complete hlink e' r ⟨by simp, by simp⟩
    · exact spared_udc <| (hlink.trans (undisturbed_rtsStartEp0Transfer e e' r _)).trans
        ((silent_rtsEpQueueStart _ e' r _).undisturbed e)
  · exact spared_udc <| (hlink.trans ((quiet_rtsEpQueueIrq _ e' _).undisturbed e)).trans
      ((silent_rtsEpQueueStart _ e' r _).undisturbed e)

theorem spared_ep0Process : Spared e m m.ep0Process := by
  unfold Machine.ep0Process
  split
  · exact spared_udc (Undisturbed.refl e m.udc)
  · next r rest hq =>
    dsimp only
    have hadv := undisturbed_ep0Advance e ep0 r m.udc
    split
    · exact spared_complete hadv ep0 r ⟨by simp, by simp⟩
    · exact spared_udc (hadv.trans (undisturbed_rtsStartEp0Transfer e ep0 r _))

theorem spared_xferProcess (e' : EpId) (dmaout : UInt32) :
    Spared e m (m.xferProcess e' dmaout) := by
  have hnext : Cont.startNext ≠ .disable ∧ Cont.startNext ≠ .uvcDone := ⟨by simp, by simp⟩
  unfold Machine.xferProcess
  split
  · next k =>
    split
    · unfold Machine.intrProcess
      split
      · exact spared_udc (Undisturbed.refl e m.udc)
      · next r rest hq =>
        dsimp only
        have hadv := (quiet_intrAdvance m.udc (.epIn k) r).undisturbed e
        split
        · split
          · exact spared_complete hadv _ r hnext
          · exact spared_udc (hadv.trans ((silent_rtsStartIntrTransfer _ _ r).undisturbed e))
        · exact spared_udc (Undisturbed.refl e m.udc)
    · split
      · unfold Machine.uacInProcess
        split
        · exact spared_udc (Undisturbed.refl e m.udc)
        · exact spared_complete ((quiet_rtsInComplete m.udc _ _).undisturbed e) _ _ hnext
      · exact spared_udc ((silent_queueXferWork m.udc _).undisturbed e)
  · unfold Machine.outProcess
    split
    · exact spared_udc (Undisturbed.refl e m.udc)
    · exact spared_complete ((quiet_rtsTransferComplete m.udc _ _ _).undisturbed e) _ _ hnext

theorem spared_wqProcess (e' : EpId) : Spared e m (m.wqProcess e') := by
  unfold Machine.wqProcess
  split
  · exact spared_udc (Undisturbed.refl e m.udc)
  · next r rest hq =>
    refine (spared_udc ((quiet_rtsInComplete m.udc e' r).undisturbed e)).trans ?_
    exact (enters_enterDoneWq _ e' r 0 .startNext).spared (.inr rfl) (by simp [threatens])

theorem spared_setupProcess {hs : Bool} {ctrl : SetupPacket}
    (hn : m.setupProcess hs ctrl = some n) : Spared e m n := by
  obtain ⟨w, hw, hcases⟩ := setupProcess_cases hn
  have hudc : Undisturbed e m.udc w :=
    (undisturbed_readSetup e ctrl m.udc).trans (hw.undisturbed e)
  rcases hcases with rfl | rfl | ⟨-, -, rfl⟩
  · exact spared_udc hudc
  · refine ⟨hudc, fun t ht => ?_⟩
    rcases List.mem_cons.mp ht with rfl | hmem
    · exact .inr rfl
    · exact .inl hmem
  · exact (spared_udc hudc).trans (spared_epQueue ep0 ep0Req)

theorem spared_resumeTask {i : Nat} {t : Task} (ht : threatens e t = false) (answer : Int) :
    Spared e m (resumeTask { m with tasks := m.tasks.eraseIdx i } t answer) := by
  have herase : Spared e m { m with tasks := m.tasks.eraseIdx i } :=
    ⟨Undisturbed.refl e m.udc, fun t ht => .inl (List.mem_of_mem_eraseIdx ht)⟩
  refine herase.trans ?_
  generalize Machine.mk m.udc (m.tasks.eraseIdx i) = m'
  cases t with
  | giveback e' r stopped k =>
    refine (spared_udc (undisturbed_rtsDoneLeave e e' stopped m'.udc)).trans ?_
    have hne (hk : k = .disable ∨ k = .uvcDone) : e' ≠ e := by
      intro he
      simp [threatens, he, hk] at ht
    cases k with
    | ret => exact spared_udc (Undisturbed.refl e _)
    | startNext => exact spared_udc ((silent_rtsStartNextRequest _ e').undisturbed e)
    | epQueue r' wasEmpty =>
      exact spared_udc ((silent_rtsEpQueueStart _ e' r' wasEmpty).undisturbed e)
    | disable => exact spared_disableLoop (hne (.inl rfl))
    | uvcDone => exact spared_uvcDoneLoop (hne (.inr rfl))
  | uvcZero e' =>
    have hne : e' ≠ e := by
      intro he
      simp [threatens, he] at ht
    exact spared_udc (undisturbed_clearEp hne m'.udc)
  | setup =>
    unfold resumeTask
    dsimp only
    split
    · exact spared_udc ((quiet_rtsSetCxstall m'.udc).undisturbed e)
    · exact spared_udc (Undisturbed.refl e m'.udc)

/-- The event neither enables, disables, flushes nor dequeues from `e`. -/
def Spares (e : EpId) (m : Machine) : Ev → Prop
  | .dequeue e' _ => e' ≠ e
  | .disable e' => e' ≠ e
  | .enable e' _ => e' ≠ e
  | .uvcDoneWork e' => e' ≠ e
  | .resume i _ => ∀ t, m.tasks[i]? = some t → threatens e t = false
  | _ => True

/-- A step that spares the endpoint leaves it as it is. -/
theorem step_undisturbed (hnum : Numbered m.udc) {ev : Ev} (hev : Spares e m ev)
    (hn : m.step ev = some n) : Spared e m n := by
  cases ev with
  | queue e' r length =>
    obtain ⟨-, rfl⟩ := step_queue hn
    exact (spared_udc ((quiet_setReq m.udc r _).undisturbed e)).trans (spared_epQueue e' r)
  | dequeue e' r =>
    obtain rfl := Option.some.inj hn
    split
    · exact (enters_enterDone m e' r _ .ret).spared (.inl hev) (by simp [threatens])
    · exact spared_udc (Undisturbed.refl e m.udc)
  | setHalt e' value wedge =>
    cases hn
    exact spared_udc ((silent_setHaltAndWedge m.udc e' value wedge).undisturbed e)
  | disable e' =>
    obtain rfl := Option.some.inj hn
    have hbegin := spared_udc (undisturbed_rtsEpDisableBegin (e := e) hev hnum)
    split
    · exact hbegin
    · exact hbegin.trans (spared_disableLoop hev)
  | enable e' desc =>
    obtain ⟨hdesc, rfl⟩ := step_enable hn
    exact spared_udc (undisturbed_rtsEpEnable hev hdesc.1 m.udc)
  | xferIrq e' dmaout =>
    obtain ⟨r, l, -, -, rfl⟩ := step_xferIrq hn
    exact (spared_udc (undisturbed_finishXfer e _ _ m.udc)).trans (spared_xferProcess e' dmaout)
  | xferWork e' =>
    obtain ⟨-, rfl⟩ := step_xferWork hn
    exact (spared_udc ((silent_takeXferWork m.udc e').undisturbed e)).trans (spared_wqProcess e')
  | uvcDoneWork e' =>
    obtain ⟨-, rfl⟩ := step_uvcDoneWork hn
    have hwork : (m.udc.takeDoneWork e').doneWork e = m.udc.doneWork e := by
      show Function.update m.udc.doneWork e' false e = m.udc.doneWork e
      rw [Function.update_of_ne (Ne.symm hev)]
    have htake : Undisturbed e m.udc (m.udc.takeDoneWork e') :=
      ⟨id, rfl, rfl, rfl, hwork, rfl⟩
    exact (spared_udc htake).trans (spared_uvcDoneLoop hev)
  | setup hs ctrl => exact spared_setupProcess (step_setup hn).2
  | ep0Irq =>
    cases hn
    exact spared_ep0Process
  | resume i answer =>
    obtain ⟨t, ht, rfl⟩ := step_resume hn
    exact spared_resumeTask (hev t ht) answer

/-! ## Runs -/

theorem exists_ne_slot (e' : EpId) : ∃ e : EpId, e' ≠ e := by
  by_cases h : e' = .epIn 5
  · exact ⟨.epIn 6, by rw [h]; decide⟩
  · exact ⟨.epIn 5, h⟩

theorem exists_spares (m : Machine) (ev : Ev) : ∃ e, Spares e m ev := by
  cases ev with
  | dequeue e' r => exact exists_ne_slot e'
  | disable e' => exact exists_ne_slot e'
  | enable e' desc => exact exists_ne_slot e'
  | uvcDoneWork e' => exact exists_ne_slot e'
  | resume i answer =>
    cases ht : m.tasks[i]? with
    | none =>
      refine ⟨ep0, fun t hmem => ?_⟩
      rw [ht] at hmem
      cases hmem
    | some t =>
      have hone : ∃ e, threatens e t = false := by
        cases t with
        | giveback e' r s k =>
          obtain ⟨e, he⟩ := exists_ne_slot e'
          exact ⟨e, by simp [threatens, he]⟩
        | uvcZero e' =>
          obtain ⟨e, he⟩ := exists_ne_slot e'
          exact ⟨e, by simp [threatens, he]⟩
        | setup => exact ⟨ep0, rfl⟩
      obtain ⟨e, he⟩ := hone
      refine ⟨e, fun t' hmem => ?_⟩
      rw [ht] at hmem
      cases hmem
      exact he
  | queue e' r length => exact ⟨ep0, trivial⟩
  | setHalt e' value wedge => exact ⟨ep0, trivial⟩
  | xferIrq e' dmaout => exact ⟨ep0, trivial⟩
  | xferWork e' => exact ⟨ep0, trivial⟩
  | setup hs ctrl => exact ⟨ep0, trivial⟩
  | ep0Irq => exact ⟨ep0, trivial⟩

theorem numbered_step (h : Numbered m.udc) {ev : Ev} (hn : m.step ev = some n) :
    Numbered n.udc := by
  obtain ⟨e, he⟩ := exists_spares m ev
  exact (step_undisturbed h he hn).udc.numbered h

theorem numbered_run (h : Numbered m.udc) {evs : List Ev} (hrun : exec step m evs = some n) :
    Numbered n.udc := by
  have hany : Along step (fun _ _ => True) m evs := Along.of_mem fun _ _ => trivial
  exact exec_invariant (fun _ _ _ h _ hs => numbered_step h hs) h hany hrun

/-- A UVC endpoint is enabled with no disable of it under way, and since the log was `log₀` none of
its requests was given back with `-ECONNRESET`. -/
structure Kept (e : EpId) (log₀ : List Action) (m : Machine) : Prop where
  numbered : Numbered m.udc
  epnum : (m.udc.ep e).epnum = e.num
  mcnum : (m.udc.ep e).mcnum = e.num - 5
  epEnable : (m.udc.ep e).epEnable = true
  doneWork : m.udc.doneWork e = false
  tasks : ∀ t ∈ m.tasks, threatens e t = false
  resets : resets e m.udc.log = resets e log₀

theorem isIn_of_uvc (h : isUvcNum e.num = true) : e.isIn = true := by
  cases e with
  | epIn k => rfl
  | epOut k =>
    have h56 : k.val + 1 = 5 ∨ k.val + 1 = 6 := by simpa [isUvcNum, EpId.num] using h
    omega

theorem kept_enable (huvc : isUvcNum e.num = true) (hnum : Numbered m.udc)
    (hwork : m.udc.doneWork e = false) (htasks : ∀ t ∈ m.tasks, threatens e t = false)
    {desc : EpDesc} (hn : m.step (.enable e desc) = some n) :
    (m.udc.rtsEpEnable e desc).1 = 0 ∧ n.udc = (m.udc.rtsEpEnable e desc).2 ∧
      Kept e m.udc.log n := by
  have hnumbered := numbered_step hnum hn
  obtain ⟨hdesc, rfl⟩ := step_enable hn
  have huvc' : isUvcNum (usbEndpointNum desc) = true := by rw [hdesc.1]; exact huvc
  have hin : usbEndpointDirIn desc = true := by rw [hdesc.2]; exact isIn_of_uvc huvc
  obtain ⟨hret, hmapped⟩ := rtsEpEnable_uvc (u := m.udc) (e := e) huvc' hin
  have hne : usbEndpointNum desc ≠ 0 := by
    intro h0
    rw [h0] at huvc'
    cases huvc'
  obtain ⟨hlocal, hepnum⟩ := rtsEpEnable_local m.udc e desc
  obtain ⟨hen, -, -, hmc⟩ := rtsEpEnable_ok hne hret
  refine ⟨hret, rfl, hnumbered, hepnum.trans hdesc.1, ?_, hen, ?_, htasks, ?_⟩
  · rw [← hdesc.1, ← hmapped]
    exact hmc
  · show (m.udc.rtsEpEnable e desc).2.doneWork e = false
    rw [hlocal.doneWork, hwork]
  · show resets e (m.udc.rtsEpEnable e desc).2.log = resets e m.udc.log
    rw [← resets_loudLog, loudLog_congr hlocal.log, resets_loudLog]

/-- The event neither disables `e` nor dequeues from it. -/
def KeepsEnabled (e : EpId) : Ev → Prop
  | .disable e' => e' ≠ e
  | .dequeue e' _ => e' ≠ e
  | _ => True

/-- A step between two enables keeps what the first one left. -/
theorem Kept.step {log₀ : List Action} (h : Kept e log₀ m) (huvc : isUvcNum e.num = true) {ev : Ev}
    (hev : KeepsEnabled e ev) (hn : m.step ev = some n) : Kept e log₀ n := by
  have hspared (hs : Spares e m ev) : Kept e log₀ n := by
    obtain ⟨hudc, htasks⟩ := step_undisturbed h.numbered hs hn
    refine ⟨hudc.numbered h.numbered, hudc.epnum.trans h.epnum, hudc.mcnum.trans h.mcnum,
      hudc.epEnable.trans h.epEnable, hudc.doneWork.trans h.doneWork, fun t ht => ?_,
      hudc.resets.trans h.resets⟩
    rcases htasks t ht with hmem | hnot
    · exact h.tasks t hmem
    · exact hnot
  cases ev with
  | enable e' desc =>
    by_cases he : e' = e
    · subst he
      obtain ⟨-, -, hkept⟩ := kept_enable huvc h.numbered h.doneWork h.tasks hn
      exact { hkept with resets := hkept.resets.trans h.resets }
    · exact hspared he
  | uvcDoneWork e' =>
    by_cases he : e' = e
    · subst he
      -- the flush work is not queued
      exact Bool.noConfusion (h.doneWork.symm.trans (step_uvcDoneWork hn).1.1)
    · exact hspared he
  | resume i answer => exact hspared fun t ht => h.tasks t (List.mem_of_getElem? ht)
  | dequeue e' r => exact hspared hev
  | disable e' => exact hspared hev
  | queue e' r length => exact hspared trivial
  | setHalt e' value wedge => exact hspared trivial
  | xferIrq e' dmaout => exact hspared trivial
  | xferWork e' => exact hspared trivial
  | setup hs ctrl => exact hspared trivial
  | ep0Irq => exact hspared trivial

/-- A UVC endpoint is enabled only when no disable of it is under way: its flush work is neither
queued nor running, and no loop over its queue is inside a callback. -/
def EnableOk (m : Machine) : Ev → Prop
  | .enable e _ => isUvcNum e.num = true →
    m.udc.doneWork e = false ∧ ∀ t ∈ m.tasks, threatens e t = false
  | _ => True

instance (m : Machine) : ∀ ev, Decidable (EnableOk m ev)
  | .enable e _ => inferInstanceAs (Decidable (isUvcNum e.num = true →
      m.udc.doneWork e = false ∧ ∀ t ∈ m.tasks, threatens e t = false))
  | .queue .. | .dequeue .. | .setHalt .. | .disable _ | .xferIrq .. | .xferWork _
  | .uvcDoneWork _ | .setup .. | .ep0Irq | .resume .. => isTrue trivial

/-- `m` still has what enabling `e` left behind in `m₂`, and no request of `e` was given back with
`-ECONNRESET` since. -/
structure UvcKept (e : EpId) (m₂ m : Machine) : Prop where
  epnum : (m₂.udc.ep e).epnum = e.num ∧ (m.udc.ep e).epnum = (m₂.udc.ep e).epnum
  mcnum : (m₂.udc.ep e).mcnum = e.num - 5 ∧ (m.udc.ep e).mcnum = (m₂.udc.ep e).mcnum
  epEnable : (m₂.udc.ep e).epEnable = true ∧ (m.udc.ep e).epEnable = (m₂.udc.ep e).epEnable
  resets : resets e m.udc.log = resets e m₂.udc.log

/-- **An enable lasts until the next disable.**  In every run in which UVC endpoints are
enabled only as `EnableOk` says, each such enable returns 0, and what it sets stays through
any events without a disable or a dequeue on the endpoint, among them queued requests, their
transfers and the flush works of the other endpoint. -/
theorem uvc_kept_of_enableOk {m₀ m : Machine} {pre post : List Ev} {desc : EpDesc}
    (huvc : isUvcNum e.num = true) (hnum : Numbered m₀.udc)
    (hok : Along step EnableOk m₀ (pre ++ .enable e desc :: post))
    (hpost : ∀ ev ∈ post, KeepsEnabled e ev)
    (hrun : exec step m₀ (pre ++ .enable e desc :: post) = some m) :
    ∃ m₁ m₂, exec step m₀ pre = some m₁ ∧ m₁.step (.enable e desc) = some m₂ ∧
      (m₁.udc.rtsEpEnable e desc).1 = 0 ∧ UvcKept e m₂ m := by
  obtain ⟨m₁, hpre, hrest⟩ := exec_append.mp hrun
  obtain ⟨m₂, hen, hmid⟩ := exec_cons.mp hrest
  obtain ⟨hwork, htasks⟩ := (hok.append.2 m₁ hpre).1 huvc
  obtain ⟨hret, -, hkept⟩ := kept_enable huvc (numbered_run hnum hpre) hwork htasks hen
  have halong : Along step (fun _ ev => KeepsEnabled e ev) m₂ post :=
    Along.of_mem hpost
  have hend : Kept e m₁.udc.log m :=
    exec_invariant (fun _ _ _ h hC hs => Kept.step h huvc hC hs) hkept halong hmid
  refine ⟨m₁, m₂, hpre, hen, hret, ⟨hkept.epnum, hend.epnum.trans hkept.epnum.symm⟩,
    ⟨hkept.mcnum, hend.mcnum.trans hkept.mcnum.symm⟩,
    ⟨hkept.epEnable, hend.epEnable.trans hkept.epEnable.symm⟩,
    hend.resets.trans hkept.resets.symm⟩

theorem numbered_addressed : Numbered addressed := fun _ => .inl rfl

/-- A stream on `ep5in` is stopped, flushed, and started again. -/
def flushFirst : List Ev :=
  [.enable (.epIn 5) uvcInDesc, .disable (.epIn 5), .uvcDoneWork (.epIn 5), .resume 0 0]

theorem uvc_kept_flushFirst :
    ∃ m₁ m₂ m, exec step ⟨addressed, []⟩ flushFirst = some m₁ ∧
      m₁.step (.enable (.epIn 5) uvcInDesc) = some m₂ ∧
      (m₁.udc.rtsEpEnable (.epIn 5) uvcInDesc).1 = 0 ∧ UvcKept (.epIn 5) m₂ m := by
  obtain ⟨m, hm⟩ : ∃ m, exec step ⟨addressed, []⟩
      (flushFirst ++ .enable (.epIn 5) uvcInDesc :: [.queue (.epIn 5) 1 512]) = some m :=
    Option.isSome_iff_exists.mp (by decide +kernel)
  obtain ⟨m₁, m₂, h⟩ := uvc_kept_of_enableOk (e := .epIn 5) (by decide) numbered_addressed
    (by decide +kernel) (by simp [KeepsEnabled]) hm
  exact ⟨m₁, m₂, m, h⟩

/-- A stream on `ep5in` is stopped and started again before the flush work runs. -/
def flushLate : List Ev :=
  [.enable (.epIn 5) uvcInDesc, .disable (.epIn 5), .enable (.epIn 5) uvcInDesc,
    .queue (.epIn 5) 1 512, .uvcDoneWork (.epIn 5), .resume 0 0, .resume 0 0]

/-- **The hole.**  In `flushLate` the flush work of the disable runs after the second enable: it
gives the new request back with `-ECONNRESET` and clears number and enable flag. -/
theorem not_uvcKept_flushLate :
    ∃ m₁ m₂ m, exec step ⟨addressed, []⟩ (flushLate.take 2) = some m₁ ∧
      m₁.step (.enable (.epIn 5) uvcInDesc) = some m₂ ∧
      (m₁.udc.rtsEpEnable (.epIn 5) uvcInDesc).1 = 0 ∧
      (∀ ev ∈ flushLate.drop 3, KeepsEnabled (.epIn 5) ev) ∧
      exec step m₂ (flushLate.drop 3) = some m ∧
      (m.udc.ep (.epIn 5)).epnum = 0 ∧ (m.udc.ep (.epIn 5)).epEnable = false ∧
      resets (.epIn 5) m.udc.log = [.giveback (.epIn 5) 1 (-ECONNRESET)] ∧
      ¬ UvcKept (.epIn 5) m₂ m := by
  obtain ⟨m₁, hm₁⟩ : ∃ m₁, exec step ⟨addressed, []⟩ (flushLate.take 2) = some m₁ :=
    Option.isSome_iff_exists.mp (by decide +kernel)
  obtain ⟨m₂, hm₂⟩ : ∃ m₂, exec step ⟨addressed, []⟩ (flushLate.take 3) = some m₂ :=
    Option.isSome_iff_exists.mp (by decide +kernel)
  have hstep : m₁.step (.enable (.epIn 5) uvcInDesc) = some m₂ := by
    obtain ⟨m₁', h₁, h₂⟩ := exec_append.mp
      (show exec step _ (flushLate.take 2 ++ [.enable (.epIn 5) uvcInDesc]) = some m₂ from hm₂)
    rw [hm₁] at h₁
    cases h₁
    exact exec_singleton.mp h₂
  have hret : (exec step ⟨addressed, []⟩ (flushLate.take 2)).map (fun m =>
      (m.udc.rtsEpEnable (.epIn 5) uvcInDesc).1) = some 0 := by
    decide +kernel
  rw [hm₁] at hret
  have hend : (exec step ⟨addressed, []⟩ flushLate).map (fun m =>
      ((m.udc.ep (.epIn 5)).epnum, (m.udc.ep (.epIn 5)).epEnable,
        resets (.epIn 5) m.udc.log)) =
      some (0, false, [.giveback (.epIn 5) 1 (-ECONNRESET)]) := by
    decide +kernel
  obtain ⟨m, hm, hvals⟩ := Option.map_eq_some_iff.mp hend
  simp only [Prod.mk.injEq] at hvals
  obtain ⟨hepnum, hen, hresets⟩ := hvals
  have hrun : exec step m₂ (flushLate.drop 3) = some m := by
    obtain ⟨m₂', h₁, h₂⟩ := exec_append.mp
      (show exec step _ (flushLate.take 3 ++ flushLate.drop 3) = some m from hm)
    rw [hm₂] at h₁
    cases h₁
    exact h₂
  refine ⟨m₁, m₂, m, hm₁, hstep, Option.some_inj.mp hret, by simp [flushLate, KeepsEnabled], hrun,
    hepnum, hen, hresets, fun hkept => ?_⟩
  have h5 := hkept.epnum.2.trans hkept.epnum.1
  rw [hepnum] at h5
  cases h5

end Machine
end RealtekIpcam
