import RealtekIpcam.Udc.Setup

/-!
# Requests are owned by exactly one queue

A request that the gadget driver queues belongs to the endpoint's queue until it is given back, and
is given back once.  The ledger of the log says which queue owns a request; the invariant `Owns`
says that the driver's lists agree with it, and that `request_pending` counts the queued requests
together with the completion callbacks that are running.

The code has one hole.  `rts_ep_dequeue` tests whether the *queue* is empty where it should test
whether the request is on it, so a request that is already given back is given back again as long as
another request is queued.  `DequeueOk` is the condition that keeps a step out of the hole, and
`ownership_of_dequeueOk` is the property for all runs that meet it.
-/

namespace RealtekIpcam
namespace Udc

/-- The number of requests on all endpoint queues. -/
def totalQueued (u : Udc) : Nat := ∑ e, (u.ep e).queue.length

/-- The lists agree with the ledger while `n` completion callbacks are running. -/
structure Owns (u : Udc) (n : Nat) : Prop where
  sound : Ledger.Sound (ledger u.log)
  holder : ∀ e r, Ledger.holder r (ledger u.log) = some e ↔ r ∈ (u.ep e).queue
  nodup : ∀ e, (u.ep e).queue.Nodup
  pending : u.requestPending = u.totalQueued + n

variable {u v : Udc} {n : Nat}

/-! ## One operation -/

theorem Owns.calm (h : Owns u n) (hc : Calm u v) : Owns v n where
  sound := hc.ledger ▸ h.sound
  holder e r := by rw [hc.ledger, hc.queue]; exact h.holder e r
  nodup e := hc.queue e ▸ h.nodup e
  pending := by
    have htotal : v.totalQueued = u.totalQueued :=
      Finset.sum_congr rfl fun e _ => congrArg List.length (hc.queue e)
    rw [hc.pending, htotal, h.pending]

theorem Owns.queue_unique (h : Owns u n) {e e' : EpId} {r : ReqId} (he : r ∈ (u.ep e).queue)
    (he' : r ∈ (u.ep e').queue) : e' = e := by
  have hholder := (h.holder e' r).mpr he'
  rw [(h.holder e r).mpr he, Option.some_inj] at hholder
  exact hholder.symm

theorem rtsEpQueueLink_queue (e e' : EpId) (r : ReqId) :
    ((u.rtsEpQueueLink e r).ep e').queue =
      if e' = e then (u.ep e).queue ++ [r] else (u.ep e').queue := by
  show ((u.setEp e fun x => { x with queue := x.queue ++ [r] }).ep e').queue = _
  rw [setEp_ep]
  split <;> rfl

/-- A request that is in no queue is queued. -/
theorem Owns.link (h : Owns u n) (e : EpId) {r : ReqId} (hr : ¬ u.Linked r) :
    Owns (u.rtsEpQueueLink e r) n where
  sound := h.sound
  holder e' r' := by
    show Ledger.holder r' (.submit e r :: ledger u.log) = some e' ↔ _
    rw [Ledger.holder, rtsEpQueueLink_queue]
    by_cases hrr : r = r'
    · subst hrr
      rw [if_pos rfl, Option.some_inj]
      constructor
      · rintro rfl
        rw [if_pos rfl]
        exact List.mem_append_right _ List.mem_cons_self
      · intro hmem
        by_contra hne
        rw [if_neg (Ne.symm hne)] at hmem
        exact hr ⟨e', hmem⟩
    · rw [if_neg hrr, h.holder]
      split
      · next he =>
        rw [he, List.mem_append, List.mem_singleton, or_iff_left (Ne.symm hrr)]
      · rfl
  nodup e' := by
    rw [rtsEpQueueLink_queue]
    split
    · refine (h.nodup e).append (List.nodup_singleton r) ?_
      rw [List.disjoint_singleton]
      exact fun hmem => hr ⟨e, hmem⟩
    · exact h.nodup e'
  pending := by
    have htotal : (u.rtsEpQueueLink e r).totalQueued = u.totalQueued + 1 := by
      have hlen (e' : EpId) : ((u.rtsEpQueueLink e r).ep e').queue.length =
          (u.ep e').queue.length + if e' = e then 1 else 0 := by
        rw [rtsEpQueueLink_queue]
        split
        · next he => rw [he, List.length_append, List.length_singleton]
        · rfl
      unfold totalQueued
      rw [Finset.sum_congr rfl fun e' _ => hlen e', Finset.sum_add_distrib,
        Finset.sum_ite_eq' Finset.univ e, if_pos (Finset.mem_univ e)]
    have hpend : (u.rtsEpQueueLink e r).requestPending = u.requestPending + 1 := rfl
    have hold := h.pending
    omega

theorem rtsDoneUnlink_queue (e e' : EpId) (r : ReqId) (status : Int) :
    ((u.rtsDoneUnlink e r status).ep e').queue = (u.ep e').queue.erase r := by
  show (((u.listDelInit r).setEp e fun x => { x with stopped := true }).ep e').queue = _
  rw [setEp_ep]
  split
  · next he => rw [he]; rfl
  · rfl

/-- A request is given back once. -/
theorem Owns.giveBack (h : Owns u n) {e : EpId} {r : ReqId} {status : Int}
    (hr : r ∈ (u.ep e).queue) (hv : GivesBack e r status u v) : Owns v (n + 1) := by
  obtain ⟨w, hw, rfl⟩ := hv
  have hqueue (e' : EpId) : (w.ep e').queue = (u.ep e').queue.erase r := by
    rw [hw.calm.queue, rtsDoneUnlink_queue]
  have hledger : ledger (w.emit (.giveback e r (u.doneStatus status))).log =
      .complete e r :: ledger u.log := by
    show .complete e r :: ledger w.log = _
    rw [hw.calm.ledger]
    rfl
  refine ⟨?_, fun e' r' => ?_, fun e' => ?_, ?_⟩
  · rw [hledger]
    exact ⟨(h.holder e r).mpr hr, h.sound⟩
  · show Ledger.holder r' _ = some e' ↔ r' ∈ (w.ep e').queue
    rw [hledger, Ledger.holder, hqueue, (h.nodup e').mem_erase_iff]
    by_cases hrr : r = r'
    · rw [if_pos hrr]
      constructor
      · intro hnone
        cases hnone
      · exact fun hmem => absurd hrr.symm hmem.1
    · rw [if_neg hrr, h.holder]
      exact ⟨fun hmem => ⟨Ne.symm hrr, hmem⟩, fun hmem => hmem.2⟩
  · show (w.ep e').queue.Nodup
    rw [hqueue]
    exact (h.nodup e').erase r
  · have hlen (e' : EpId) : (u.ep e').queue.length =
        (w.ep e').queue.length + if e' = e then 1 else 0 := by
      rw [hqueue]
      by_cases he : e' = e
      · subst he
        rw [if_pos rfl, List.length_erase_of_mem hr]
        have hpos := List.length_pos_of_mem hr
        omega
      · have hnot : r ∉ (u.ep e').queue := fun hmem => he (h.queue_unique hr hmem)
        rw [if_neg he, List.erase_of_not_mem hnot]
        rfl
    have htotal : u.totalQueued = w.totalQueued + 1 := by
      unfold totalQueued
      rw [Finset.sum_congr rfl fun e' _ => hlen e', Finset.sum_add_distrib,
        Finset.sum_ite_eq' Finset.univ e, if_pos (Finset.mem_univ e)]
    have hpend : w.requestPending = u.requestPending := hw.pending
    have hold := h.pending
    show w.requestPending = w.totalQueued + (n + 1)
    omega

theorem Owns.leave (h : Owns u (n + 1)) (e : EpId) (stopped : Bool) :
    Owns (u.rtsDoneLeave e stopped) n := by
  have hpos : u.requestPending > 0 := by
    rw [h.pending]
    omega
  have hdec : Owns { u with requestPending := u.requestPending - 1 } n := by
    refine ⟨h.sound, h.holder, h.nodup, ?_⟩
    have hold := h.pending
    show u.requestPending - 1 = u.totalQueued + n
    omega
  unfold rtsDoneLeave
  rw [if_pos hpos]
  exact hdec.calm (calm_setEp (fun _ => by rfl) _ e)

end Udc

namespace Machine

open Runs Udc

/-- The number of completion callbacks that are running. -/
def callbacks (ts : List Task) : Nat := ts.countP Task.isGiveback

/-- The invariant of the machine. -/
def Owned (m : Machine) : Prop := Owns m.udc (callbacks m.tasks)

variable {m n : Machine}

/-! ## One handler -/

theorem Owned.calm {v : Udc} (h : m.Owned) (hc : Calm m.udc v) : Owned { m with udc := v } :=
  Owns.calm h hc

theorem Owned.enters (h : m.Owned) {e : EpId} {r : ReqId} {status : Int} {k : Cont}
    (hr : r ∈ (m.udc.ep e).queue) (hn : m.Enters e r status k n) : n.Owned := by
  obtain ⟨v, hv, rfl⟩ := hn
  have hgive := Owns.giveBack h hr hv
  unfold Owned callbacks at *
  rw [List.countP_cons_of_pos rfl]
  exact hgive

theorem Owned.enterDone (h : m.Owned) {e : EpId} {r : ReqId} (hr : r ∈ (m.udc.ep e).queue)
    (status : Int) (k : Cont) : (m.enterDone e r status k).Owned :=
  h.enters hr (enters_enterDone m e r status k)

theorem Owned.enterDoneWq (h : m.Owned) {e : EpId} {r : ReqId} (hr : r ∈ (m.udc.ep e).queue)
    (status : Int) (k : Cont) : (m.enterDoneWq e r status k).Owned :=
  h.enters hr (enters_enterDoneWq m e r status k)

theorem Owned.enterDone_calm (h : m.Owned) {e : EpId} {r : ReqId} {v : Udc}
    (hc : Calm m.udc v) (hr : r ∈ (m.udc.ep e).queue) (status : Int) (k : Cont) :
    (Machine.enterDone { m with udc := v } e r status k).Owned :=
  (h.calm hc).enterDone (hc.queue e ▸ hr) status k

theorem Owned.disableLoop (h : m.Owned) (e : EpId) : (m.disableLoop e).Owned := by
  unfold Machine.disableLoop
  split
  · split
    · exact h
    · exact h.calm (calm_clearEp m.udc e)
  · next r rest hq => exact h.enterDone (hq ▸ List.mem_cons_self) _ _

theorem Owned.uvcDoneLoop (h : m.Owned) (e : EpId) : (m.uvcDoneLoop e).Owned := by
  unfold Machine.uvcDoneLoop
  split
  · exact h
  · next r rest hq => exact h.enterDoneWq (hq ▸ List.mem_cons_self) _ _

theorem Owned.goOn (h : m.Owned) (e : EpId) (k : Cont) : (m.goOn e k).Owned := by
  cases k with
  | ret => exact h
  | startNext => exact h.calm (silent_rtsStartNextRequest m.udc e).calm
  | epQueue r wasEmpty => exact h.calm (silent_rtsEpQueueStart m.udc e r wasEmpty).calm
  | disable => exact h.disableLoop e
  | uvcDone => exact h.uvcDoneLoop e

theorem Owned.epQueue (h : m.Owned) (e : EpId) {r : ReqId} (hr : ¬ m.udc.Linked r) :
    (m.epQueue e r).Owned := by
  have hlink : Owned { m with udc := m.udc.rtsEpQueueLink e r } := Owns.link h e hr
  unfold Machine.epQueue
  dsimp only
  split
  · split
    · refine hlink.enterDone ?_ _ _
      show r ∈ ((m.udc.rtsEpQueueLink e r).ep e).queue
      rw [rtsEpQueueLink_queue, if_pos rfl]
      exact List.mem_append_right _ List.mem_cons_self
    · exact hlink.calm <|
        (calm_rtsStartEp0Transfer _ e r).trans (silent_rtsEpQueueStart _ e r _).calm
  · exact hlink.calm ((quiet_rtsEpQueueIrq _ e _).calm.trans (silent_rtsEpQueueStart _ e r _).calm)

theorem Owned.ep0Process (h : m.Owned) : m.ep0Process.Owned := by
  unfold Machine.ep0Process
  split
  · exact h
  · next r rest hq =>
    dsimp only
    have hc := calm_ep0Advance m.udc ep0 r
    split
    · exact h.enterDone_calm hc (hq ▸ List.mem_cons_self) _ _
    · exact h.calm (hc.trans (calm_rtsStartEp0Transfer _ ep0 r))

theorem Owned.intrProcess (h : m.Owned) (e : EpId) : (m.intrProcess e).Owned := by
  unfold Machine.intrProcess
  split
  · exact h
  · next r rest hq =>
    dsimp only
    have hc := (quiet_intrAdvance m.udc e r).calm
    split
    · split
      · exact h.enterDone_calm hc (hq ▸ List.mem_cons_self) _ _
      · exact h.calm (hc.trans (silent_rtsStartIntrTransfer _ e r).calm)
    · exact h

theorem Owned.xferProcess (h : m.Owned) (e : EpId) (dmaout : UInt32) :
    (m.xferProcess e dmaout).Owned := by
  unfold Machine.xferProcess
  split
  · split
    · exact h.intrProcess _
    · split
      · unfold Machine.uacInProcess
        split
        · exact h
        · next r rest hq =>
          exact h.enterDone_calm (quiet_rtsInComplete m.udc _ r).calm (hq ▸ List.mem_cons_self) _ _
      · exact h.calm (silent_queueXferWork m.udc _).calm
  · unfold Machine.outProcess
    split
    · exact h
    · next r rest hq =>
      exact h.enterDone_calm (quiet_rtsTransferComplete m.udc _ r dmaout).calm
        (hq ▸ List.mem_cons_self) _ _

theorem Owned.wqProcess (h : m.Owned) (e : EpId) : (m.wqProcess e).Owned := by
  unfold Machine.wqProcess
  split
  · exact h
  · next r rest hq =>
    have hc := (quiet_rtsInComplete m.udc e r).calm
    exact (h.calm hc).enterDoneWq (hc.queue e ▸ hq ▸ List.mem_cons_self) _ _

theorem Owned.setupProcess (h : m.Owned) {hs : Bool} {ctrl : SetupPacket}
    (hr : asksStatus ctrl = true → ¬ m.udc.Linked ep0Req)
    (hn : m.setupProcess hs ctrl = some n) : n.Owned := by
  obtain ⟨w, hw, hcases⟩ := setupProcess_cases hn
  have hc : Calm m.udc w := (calm_readSetup m.udc ctrl).trans hw.calm
  rcases hcases with rfl | rfl | ⟨hask, -, rfl⟩
  · exact h.calm hc
  · exact h.calm hc
  · refine Owned.epQueue (h.calm hc) ep0 fun hlinked => ?_
    obtain ⟨e, he⟩ := hlinked
    exact hr hask ⟨e, hc.queue e ▸ he⟩

theorem callbacks_eraseIdx {ts : List Task} {i : Nat} {t : Task} (h : ts[i]? = some t) :
    callbacks ts = callbacks (ts.eraseIdx i) + if t.isGiveback then 1 else 0 :=
  countP_eraseIdx h _

theorem Owned.resume (h : m.Owned) {i : Nat} {t : Task} (ht : m.tasks[i]? = some t)
    (answer : Int) : (resumeTask { m with tasks := m.tasks.eraseIdx i } t answer).Owned := by
  unfold Owned at h
  rw [callbacks_eraseIdx ht] at h
  cases t with
  | giveback e r stopped k =>
    exact Owned.goOn (m := ⟨m.udc.rtsDoneLeave e stopped, m.tasks.eraseIdx i⟩)
      (Owns.leave h e stopped) e k
  | uvcZero e => exact Owns.calm h (calm_clearEp m.udc e)
  | setup =>
    dsimp only [resumeTask]
    split
    · exact Owns.calm h (quiet_rtsSetCxstall m.udc).calm
    · exact h

/-- A request is dequeued only from a queue that it is on, or that is empty. -/
def DequeueOk (m : Machine) : Ev → Prop
  | .dequeue e r => (m.udc.ep e).queue = [] ∨ r ∈ (m.udc.ep e).queue
  | _ => True

instance (m : Machine) : ∀ ev, Decidable (DequeueOk m ev)
  | .dequeue e r => inferInstanceAs (Decidable ((m.udc.ep e).queue = [] ∨ r ∈ (m.udc.ep e).queue))
  | .queue .. | .setHalt .. | .disable _ | .enable .. | .xferIrq .. | .xferWork _ | .uvcDoneWork _
  | .setup .. | .ep0Irq | .resume .. => isTrue trivial

/-- A step that meets `DequeueOk` keeps the requests owned. -/
theorem Owned.step (h : m.Owned) {ev : Ev} (hok : DequeueOk m ev) (hn : m.step ev = some n) :
    n.Owned := by
  cases ev with
  | queue e r length =>
    obtain ⟨hr, rfl⟩ := step_queue hn
    exact Owned.epQueue (h.calm (quiet_setReq m.udc r _).calm) e hr
  | dequeue e r =>
    obtain rfl := Option.some.inj hn
    split
    · next hne => exact h.enterDone (hok.resolve_left hne) _ _
    · exact h
  | setHalt e value wedge =>
    cases hn
    exact h.calm (silent_setHaltAndWedge m.udc e value wedge).calm
  | disable e =>
    cases hn
    have hc := h.calm (calm_rtsEpDisableBegin m.udc e)
    split
    · exact hc
    · exact hc.disableLoop e
  | enable e desc =>
    obtain ⟨-, rfl⟩ := step_enable hn
    exact h.calm (calm_rtsEpEnable m.udc e desc)
  | xferIrq e dmaout =>
    obtain ⟨r, l, -, -, rfl⟩ := step_xferIrq hn
    exact Owned.xferProcess (h.calm (calm_finishXfer m.udc _ _)) e dmaout
  | xferWork e =>
    obtain ⟨-, rfl⟩ := step_xferWork hn
    exact Owned.wqProcess (h.calm (silent_takeXferWork m.udc e).calm) e
  | uvcDoneWork e =>
    obtain ⟨-, rfl⟩ := step_uvcDoneWork hn
    exact Owned.uvcDoneLoop (h.calm (calm_takeDoneWork m.udc e)) e
  | setup hs ctrl =>
    obtain ⟨hr, hrun⟩ := step_setup hn
    exact h.setupProcess (fun hask hlinked => hr ⟨hask, hlinked⟩) hrun
  | ep0Irq =>
    cases hn
    exact h.ep0Process
  | resume i answer =>
    obtain ⟨t, ht, rfl⟩ := step_resume hn
    exact h.resume ht answer

/-! ## Runs -/

theorem Fresh.owned (h : m.Fresh) : m.Owned := by
  have hledger : ledger m.udc.log = [] := by rw [h.log]; rfl
  refine ⟨?_, fun e r => ?_, fun e => ?_, ?_⟩
  · rw [hledger]
    trivial
  · rw [hledger, h.queue e]
    constructor
    · intro hnone
      cases hnone
    · exact nofun
  · rw [h.queue e]
    exact List.nodup_nil
  · have hzero : m.udc.totalQueued = 0 := Finset.sum_eq_zero fun e _ => by rw [h.queue e]; rfl
    rw [h.pending, hzero, h.tasks]
    rfl

/-- What a gadget driver is promised about its requests.

* `once`: between two queueings of a request, and after the last one, at most one completion.
* `held`: a completion is of a request that its endpoint held.
* `agrees`: the endpoint that holds a request is the one whose queue it is on.
* `pending`: outside of completion callbacks, `request_pending` is the number of queued requests. -/
structure Ownership (m : Machine) : Prop where
  once : ∀ (r : ReqId) (recent older : List (Ledger.Entry EpId ReqId)),
    ledger m.udc.log = recent ++ older → (∀ x ∈ recent, Ledger.Entry.submits r x = false) →
      recent.countP (Ledger.Entry.completes r) ≤ 1
  held : ∀ (e : EpId) (r : ReqId) (recent older : List (Ledger.Entry EpId ReqId)),
    ledger m.udc.log = recent ++ .complete e r :: older → Ledger.holder r older = some e
  agrees : ∀ e r, Ledger.holder r (ledger m.udc.log) = some e ↔ r ∈ (m.udc.ep e).queue
  pending : callbacks m.tasks = 0 → m.udc.requestPending = m.udc.totalQueued

theorem Owned.ownership (h : m.Owned) : m.Ownership where
  once r recent older hlog hno := by
    have hsound := h.sound
    rw [hlog] at hsound
    exact (hsound.count_complete_le_one hno).1
  held e r recent older hlog := by
    have hsound := h.sound
    rw [hlog] at hsound
    exact hsound.of_append.1
  agrees := h.holder
  pending hzero := by
    rw [h.pending, hzero, Nat.add_zero]

/-- Two requests on `ep2out`: the second is dequeued while it waits, the first completes. -/
def orderlyDequeue : List Ev :=
  [.enable (.epOut 1) bulkOutDesc, .queue (.epOut 1) 1 512, .queue (.epOut 1) 2 512,
    .dequeue (.epOut 1) 2, .resume 0 0, .xferIrq (.epOut 1) 512, .resume 0 0]

/-- Two requests on `ep2out`: the first completes and is dequeued after that, while the second is
still queued. -/
def staleDequeue : List Ev :=
  [.enable (.epOut 1) bulkOutDesc, .queue (.epOut 1) 1 512, .queue (.epOut 1) 2 512,
    .xferIrq (.epOut 1) 512, .resume 0 0, .dequeue (.epOut 1) 1, .resume 0 0]

end Machine
end RealtekIpcam
