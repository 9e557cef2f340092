import RealtekIpcam.Udc.Setup

/-!
# Control transfers and the request that answers them

The data stage of a control transfer is moved by the request that the gadget driver queues on ep0 in
answer to the SETUP packet.  `answers` reads off the log which requests these are, and `Isolated`
says that no other request's data is put into the ep0 FIFO and no other request is advanced by a
packet interrupt.

A host may abandon a data stage by sending a new SETUP packet.  The SETUP code does not take the
unfinished request off the queue, and from then on the driver serves two: `rts_ep0_queue` starts the
new request, while `rts_ep0_transfer_process` advances and restarts the head of the queue, which is
the old one.  `SetupOk` is that no SETUP packet arrives while a request is queued on ep0, and
`isolated_of_setupOk` is the property for all runs that meet it.
-/

namespace RealtekIpcam
namespace Udc

/-! ## Isolation -/

/-- The requests queued on ep0 since the last SETUP packet. -/
def answers : List Action → List ReqId
  | [] => []
  | .setup _ :: _ => []
  | .queued e r :: l => if e = ep0 then r :: answers l else answers l
  | _ :: l => answers l

/-- Every packet that was put into the ep0 FIFO, and every advance by a packet interrupt, was of a
request queued since the last SETUP packet before it. -/
def Isolated : List Action → Prop
  | [] => True
  | .ep0In r _ _ :: l => r ∈ answers l ∧ Isolated l
  | .ep0Advance r :: l => r ∈ answers l ∧ Isolated l
  | _ :: l => Isolated l

theorem answers_loudLog (l : List Action) : answers (loudLog l) = answers l := by
  induction l with
  | nil => rfl
  | cons a l ih =>
    unfold loudLog at ih ⊢
    cases a with
    | setup ctrl => rfl
    | queued e r =>
      show (if e = ep0 then r :: answers (loudLog l) else answers (loudLog l)) =
        if e = ep0 then r :: answers l else answers l
      unfold loudLog
      rw [ih]
    | _ => exact ih

theorem isolated_loudLog (l : List Action) : Isolated (loudLog l) ↔ Isolated l := by
  induction l with
  | nil => exact Iff.rfl
  | cons a l ih =>
    have hmem (r : ReqId) : r ∈ answers (loudLog l) ↔ r ∈ answers l := by rw [answers_loudLog]
    unfold loudLog at ih hmem ⊢
    cases a with
    | ep0In r off len => exact and_congr (hmem r) ih
    | ep0Advance r => exact and_congr (hmem r) ih
    | _ => exact ih

/-! ## The invariant -/

/-- The requests on the ep0 queue all answer the last SETUP packet. -/
structure Isolates (u : Udc) : Prop where
  epnum : (u.ep ep0).epnum = 0
  queue : ∀ r ∈ (u.ep ep0).queue, r ∈ answers u.log
  log : Isolated u.log

variable {u v : Udc}

theorem Isolates.silent (h : Isolates u) (hs : Silent u v) : Isolates v where
  epnum := (hs.epnum ep0).trans h.epnum
  queue r hr := by
    rw [hs.queue] at hr
    rw [← answers_loudLog, hs.log, answers_loudLog]
    exact h.queue r hr
  log := by
    rw [← isolated_loudLog, hs.log, isolated_loudLog]
    exact h.log

theorem Isolates.quiet (h : Isolates u) (hq : Quiet u v) : Isolates v := h.silent hq.silent

theorem Isolates.link (h : Isolates u) (r : ReqId) : Isolates (u.rtsEpQueueLink ep0 r) := by
  have hself : (u.rtsEpQueueLink ep0 r).ep ep0 =
      { u.ep ep0 with queue := (u.ep ep0).queue ++ [r] } :=
    setEp_ep_self ep0 fun x => { x with queue := x.queue ++ [r] }
  have hanswers : answers (u.rtsEpQueueLink ep0 r).log = r :: answers u.log := by
    show (if ep0 = ep0 then r :: answers u.log else answers u.log) = _
    rw [if_pos rfl]
  refine ⟨by rw [hself]; exact h.epnum, fun r' hr' => ?_, h.log⟩
  rw [hself] at hr'
  rw [hanswers]
  rcases List.mem_append.mp hr' with hold | hnew
  · exact List.mem_cons_of_mem r (h.queue r' hold)
  · rw [List.mem_singleton.mp hnew]
    exact List.mem_cons_self

theorem Isolates.start (h : Isolates u) {r : ReqId} (hr : r ∈ answers u.log) :
    Isolates (u.rtsStartEp0Transfer ep0 r) := by
  unfold rtsStartEp0Transfer
  dsimp only
  split
  · exact ⟨h.epnum, h.queue, hr, h.log⟩
  · exact ⟨h.epnum, h.queue, h.log⟩

theorem Isolates.advance (h : Isolates u) {r : ReqId} (hr : r ∈ answers u.log) :
    Isolates (u.ep0Advance ep0 r) ∧ answers (u.ep0Advance ep0 r).log = answers u.log := by
  unfold ep0Advance
  dsimp only
  split
  · exact ⟨⟨h.epnum, h.queue, hr, h.log⟩, rfl⟩
  · exact ⟨h, rfl⟩

theorem Isolates.giveBack (h : Isolates u) {r : ReqId} {status : Int}
    (hv : GivesBack ep0 r status u v) : Isolates v := by
  obtain ⟨w, hw, rfl⟩ := hv
  have hunlink : Isolates (u.rtsDoneUnlink ep0 r status) := by
    have hself : (u.rtsDoneUnlink ep0 r status).ep ep0 =
        { u.ep ep0 with queue := (u.ep ep0).queue.erase r, stopped := true } :=
      setEp_ep_self ep0 fun x => { x with stopped := true }
    refine ⟨by rw [hself]; exact h.epnum, fun r' hr' => ?_, h.log⟩
    rw [hself] at hr'
    exact h.queue r' (List.mem_of_mem_erase hr')
  have hwq := hunlink.quiet hw
  exact ⟨hwq.epnum, hwq.queue, hwq.log⟩

theorem Isolates.leave (h : Isolates u) (stopped : Bool) :
    Isolates (u.rtsDoneLeave ep0 stopped) := by
  have hpend : Isolates (if u.requestPending > 0 then
      { u with requestPending := u.requestPending - 1 } else u) := by
    split
    · exact ⟨h.epnum, h.queue, h.log⟩
    · exact h
  unfold rtsDoneLeave
  dsimp only
  exact hpend.silent
    (silent_setEp (f := fun x => { x with stopped := stopped }) (fun _ => rfl) _ ep0)

theorem Isolates.readSetup (h : Isolates u) (hempty : (u.ep ep0).queue = []) (ctrl : SetupPacket) :
    Isolates (u.readSetup ctrl) := by
  refine ⟨h.epnum, fun r hr => ?_, h.log⟩
  rw [show ((u.readSetup ctrl).ep ep0).queue = (u.ep ep0).queue from rfl, hempty] at hr
  cases hr

end Udc

namespace Machine

open Runs Udc

variable {m n : Machine}

/-- The calls that control transfers leave under way. -/
def OnEp0 : Task → Prop
  | .giveback e _ _ k => e = ep0 ∧ (k = .ret ∨ ∃ r wasEmpty, k = .epQueue r wasEmpty)
  | .uvcZero _ => False
  | .setup => True

/-- The machine as control transfers leave it. -/
structure Controlled (m : Machine) : Prop where
  udc : Isolates m.udc
  tasks : ∀ t ∈ m.tasks, OnEp0 t

theorem Controlled.of_udc {v : Udc} (h : m.Controlled) (hv : Isolates v) :
    Controlled { m with udc := v } :=
  ⟨hv, h.tasks⟩

theorem Controlled.enterDone (h : m.Controlled) {v : Udc} (hv : Isolates v) (r : ReqId)
    (status : Int) {k : Cont} (hk : k = .ret ∨ ∃ r wasEmpty, k = .epQueue r wasEmpty) :
    (Machine.enterDone { m with udc := v } ep0 r status k).Controlled := by
  obtain ⟨w, hw, hn⟩ := enters_enterDone { m with udc := v } ep0 r status k
  rw [hn]
  refine ⟨hv.giveBack hw, fun t ht => ?_⟩
  rcases List.mem_cons.mp ht with rfl | hmem
  · exact ⟨rfl, hk⟩
  · exact h.tasks t hmem

theorem Controlled.epQueue (h : m.Controlled) (r : ReqId) : (m.epQueue ep0 r).Controlled := by
  have hlink := h.udc.link r
  have hanswer : r ∈ answers (m.udc.rtsEpQueueLink ep0 r).log := by
    show r ∈ if ep0 = ep0 then r :: answers m.udc.log else answers m.udc.log
    rw [if_pos rfl]
    exact List.mem_cons_self
  unfold Machine.epQueue
  dsimp only
  rw [if_pos h.udc.epnum]
  split
  · exact h.enterDone hlink r 0 (.inr ⟨r, _, rfl⟩)
  · exact h.of_udc ((hlink.start hanswer).silent (silent_rtsEpQueueStart _ ep0 r _))

theorem Controlled.ep0Process (h : m.Controlled) : m.ep0Process.Controlled := by
  unfold Machine.ep0Process
  split
  · exact h
  · next r rest hq =>
    dsimp only
    have hhead : r ∈ answers m.udc.log := h.udc.queue r (hq ▸ List.mem_cons_self)
    obtain ⟨hadv, hanswers⟩ := h.udc.advance hhead
    split
    · exact h.enterDone hadv r 0 (.inl rfl)
    · exact h.of_udc (hadv.start (hanswers ▸ hhead))

theorem Controlled.setupProcess (h : m.Controlled) (hempty : (m.udc.ep ep0).queue = [])
    {hs : Bool} {ctrl : SetupPacket} (hn : m.setupProcess hs ctrl = some n) : n.Controlled := by
  obtain ⟨w, hw, hcases⟩ := setupProcess_cases hn
  have hudc : Isolates w := (h.udc.readSetup hempty ctrl).silent hw
  rcases hcases with rfl | rfl | ⟨-, -, rfl⟩
  · exact h.of_udc hudc
  · refine ⟨hudc, fun t ht => ?_⟩
    rcases List.mem_cons.mp ht with rfl | hmem
    · exact trivial
    · exact h.tasks t hmem
  · exact Controlled.epQueue (h.of_udc hudc) ep0Req

theorem Controlled.resume (h : m.Controlled) {i : Nat} {t : Task} (ht : m.tasks[i]? = some t)
    (answer : Int) : (resumeTask { m with tasks := m.tasks.eraseIdx i } t answer).Controlled := by
  have hrest : ∀ t ∈ m.tasks.eraseIdx i, OnEp0 t :=
    fun t' ht' => h.tasks t' (List.mem_of_mem_eraseIdx ht')
  have hep0 := h.tasks t (List.mem_of_getElem? ht)
  cases t with
  | giveback e r stopped k =>
    obtain ⟨rfl, rfl | ⟨r', wasEmpty, rfl⟩⟩ := hep0
    · exact ⟨h.udc.leave stopped, hrest⟩
    · exact ⟨(h.udc.leave stopped).silent (silent_rtsEpQueueStart _ ep0 r' wasEmpty), hrest⟩
  | uvcZero e => exact hep0.elim
  | setup =>
    unfold resumeTask
    dsimp only
    split
    · exact ⟨h.udc.quiet (quiet_rtsSetCxstall m.udc), hrest⟩
    · exact ⟨h.udc, hrest⟩

/-! ## Runs -/

/-- The event belongs to control transfers. -/
def IsControl : Ev → Prop
  | .setup _ _ => True
  | .ep0Irq => True
  | .queue e _ _ => e = ep0
  | .resume _ _ => True
  | _ => False

/-- A SETUP packet arrives only when no request is queued on ep0. -/
def SetupOk (m : Machine) : Ev → Prop
  | .setup _ _ => (m.udc.ep ep0).queue = []
  | _ => True

instance (m : Machine) : ∀ ev, Decidable (SetupOk m ev)
  | .setup .. => inferInstanceAs (Decidable ((m.udc.ep ep0).queue = []))
  | .queue .. | .dequeue .. | .setHalt .. | .disable _ | .enable .. | .xferIrq .. | .xferWork _
  | .uvcDoneWork _ | .ep0Irq | .resume .. => isTrue trivial

/-- A control event leaves the machine as control transfers do. -/
theorem Controlled.step (h : m.Controlled) {ev : Ev} (hev : IsControl ev) (hok : SetupOk m ev)
    (hn : m.step ev = some n) : n.Controlled := by
  cases ev with
  | setup hs ctrl =>
    exact h.setupProcess hok (step_setup hn).2
  | ep0Irq =>
    cases hn
    exact h.ep0Process
  | queue e r length =>
    obtain rfl : e = ep0 := hev
    obtain ⟨-, rfl⟩ := step_queue hn
    exact Controlled.epQueue (h.of_udc (h.udc.quiet (quiet_setReq m.udc r _))) r
  | resume i answer =>
    obtain ⟨t, ht, rfl⟩ := step_resume hn
    exact h.resume ht answer
  | dequeue e r => exact hev.elim
  | setHalt e value wedge => exact hev.elim
  | disable e => exact hev.elim
  | enable e desc => exact hev.elim
  | xferIrq e dmaout => exact hev.elim
  | xferWork e => exact hev.elim
  | uvcDoneWork e => exact hev.elim

/-- **Control transfers are isolated.**  In every run of SETUP packets, packet interrupts and
requests on ep0 in which a SETUP packet never finds a request on ep0, only requests that answer the
last SETUP packet are put on the wire or advanced. -/
theorem isolated_of_setupOk {m₀ m : Machine} {evs : List Ev} (hfresh : m₀.Fresh)
    (hnum : (m₀.udc.ep ep0).epnum = 0) (hevs : ∀ ev ∈ evs, IsControl ev)
    (hok : Along step SetupOk m₀ evs) (hrun : exec step m₀ evs = some m) :
    Isolated m.udc.log := by
  have hstart : m₀.Controlled := by
    refine ⟨⟨hnum, fun r hr => ?_, ?_⟩, fun t ht => ?_⟩
    · rw [hfresh.queue] at hr
      cases hr
    · rw [hfresh.log]
      trivial
    · rw [hfresh.tasks] at ht
      cases ht
  exact (exec_invariant (fun _ _ _ h hC hs => Controlled.step h hC.1 hC.2 hs) hstart
    (hok.and_mem hevs) hrun).udc.log

/-- GET_DESCRIPTOR of the device descriptor, with 128 bytes at most. -/
def getDescriptor : SetupPacket := ⟨0x80, 0x06, 0x0100, 0, 128⟩

/-- Two control transfers, one after the other, each of two packets. -/
def completeTransfers : List Ev :=
  [.setup true getDescriptor, .queue ep0 1 128, .resume 0 0, .ep0Irq, .ep0Irq, .resume 0 0,
    .setup true getDescriptor, .queue ep0 2 128, .resume 0 0, .ep0Irq]

theorem isolated_completeTransfers :
    ∃ m, exec step ⟨addressed, []⟩ completeTransfers = some m ∧ Isolated m.udc.log := by
  obtain ⟨m, hm⟩ : ∃ m, exec step ⟨addressed, []⟩ completeTransfers = some m :=
    Option.isSome_iff_exists.mp (by decide +kernel)
  refine ⟨m, hm, isolated_of_setupOk ⟨fun _ => rfl, rfl, rfl, rfl⟩ rfl ?_ (by decide +kernel) hm⟩
  simp [completeTransfers, IsControl]

/-- The host abandons the data stage of the first transfer by sending a new SETUP packet. -/
def abandonedTransfer : List Ev :=
  [.setup true getDescriptor, .queue ep0 1 128, .resume 0 0,
    .setup true getDescriptor, .queue ep0 2 128, .resume 0 0, .ep0Irq]

/-- **The hole.**  After the second SETUP packet of `abandonedTransfer`, the packet interrupt
advances the first request, and its next packet is put into the FIFO. -/
theorem not_isolated_abandonedTransfer :
    ∃ m, Fresh ⟨addressed, []⟩ ∧ (addressed.ep ep0).epnum = 0 ∧
      (∀ ev ∈ abandonedTransfer, IsControl ev) ∧
      exec step ⟨addressed, []⟩ abandonedTransfer = some m ∧
      loudLog m.udc.log = [.ep0In 1 64 64, .ep0Advance 1, .ep0In 2 0 64, .queued ep0 2,
        .setup getDescriptor, .ep0In 1 0 64, .queued ep0 1, .setup getDescriptor] ∧
      ¬ Isolated m.udc.log := by
  have hend : (exec step ⟨addressed, []⟩ abandonedTransfer).map
      (fun m => loudLog m.udc.log) = some [.ep0In 1 64 64, .ep0Advance 1, .ep0In 2 0 64,
        .queued ep0 2, .setup getDescriptor, .ep0In 1 0 64, .queued ep0 1,
        .setup getDescriptor] := by
    decide +kernel
  obtain ⟨m, hm, hlog⟩ := Option.map_eq_some_iff.mp hend
  refine ⟨m, ⟨fun _ => rfl, rfl, rfl, rfl⟩, rfl, by simp [abandonedTransfer, IsControl], hm, hlog,
    fun hiso => ?_⟩
  rw [← isolated_loudLog, hlog] at hiso
  have hfirst : (1 : ReqId) ∈ [2] := hiso.1
  cases List.mem_singleton.mp hfirst

end Machine
end RealtekIpcam
