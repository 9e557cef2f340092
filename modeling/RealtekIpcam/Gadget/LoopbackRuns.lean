import RealtekIpcam.Gadget.LoopbackOwners

/-!
# Loopback conservation

The invariant of a run is that each pair is in one place, and that the calls of `usb_ep_queue` for
the IN endpoint are the OUT transfers that completed.  A completion takes a pair from an endpoint
into the hand of `loopback_complete`, which gives it to the other endpoint or frees it; the calls of
`loopback_set_alt` allocate a pair, give it to the OUT endpoint, or free what they have in hand.

`conserved_of_run` reads the guarantees off the invariant.  The IN endpoint may refuse a request,
and the bytes that it should have sent are lost then: `queuedIn_lost` is a run in which this
happens.
-/

namespace RealtekIpcam.Gadget.Loopback

open Function Runs

/-! ## Completions -/

def Pair.req (p : Pair) : Ep → Nat
  | .outEp => p.outReq
  | .inEp => p.inReq

section

variable {s : State} {outs ins hand gone : List Pair} {alone lone : List Nat} {p : Pair}

theorem Linked.context (h : Linked s.reqs p) (ep : Ep) :
    (s.reqs (p.req ep)).context = p.req ep.other := by
  cases ep with
  | outEp => exact h.outContext
  | inEp => exact h.inContext

theorem Linked.buf (h : Linked s.reqs p) (ep : Ep) : (s.reqs (p.req ep)).buf = p.buf := by
  cases ep with
  | outEp => exact h.outBuf
  | inEp => exact h.inBuf

/-- The endpoints and the code that runs have between them all pairs but those in hand. -/
def Kept (s : State) (hand : List Pair) (alone : List Nat) : Prop :=
  ∃ outs ins gone lone, Owned s outs ins hand gone alone lone

theorem Owned.linked_hand (h : Owned s outs ins (p :: hand) gone alone lone) : Linked s.reqs p :=
  h.linked p (.inr (.inr List.mem_cons_self))

theorem Owned.freeReq (h : Owned s outs ins (p :: hand) gone alone lone) (ep : Ep) :
    Owned (s.freeReq ep (p.req ep)) outs ins hand (p :: gone) alone lone := by
  have hfrees : (s.freeReq ep (p.req ep)).reqFrees =
      (ep, p.req ep) :: (ep.other, p.req ep.other) :: s.reqFrees := by
    rw [← h.linked_hand.context ep]
    rfl
  refine h.free rfl rfl rfl ?_ ?_ rfl rfl
  · rw [hfrees]
    cases ep with
    | outEp => exact List.Perm.swap _ _ _
    | inEp => exact List.Perm.refl _
  · rw [← h.linked_hand.buf ep]
    rfl

theorem Owned.usbEpQueue (h : Owned s outs ins (p :: hand) gone alone lone) (ep : Ep) (ok : Bool) :
    ((s.usbEpQueue ep (p.req ep) ok).2 = true →
      Kept (s.usbEpQueue ep (p.req ep) ok).1 hand alone) ∧
    ((s.usbEpQueue ep (p.req ep) ok).2 = false →
      Owned (s.usbEpQueue ep (p.req ep) ok).1 outs ins (p :: hand) gone alone lone) := by
  have hsame : SameMemory s (s.usbEpQueue ep (p.req ep) ok).1 :=
    SameMemory.of_eq rfl rfl rfl rfl rfl
  have hqueue : (s.usbEpQueue ep (p.req ep) ok).1.queue =
      if (ok && s.enabled ep) = true then update s.queue ep (s.queue ep ++ [p.req ep])
      else s.queue := rfl
  constructor
  · intro haccepted
    have haccepted : (ok && s.enabled ep) = true := haccepted
    rw [if_pos haccepted] at hqueue
    have henabled := (Bool.and_eq_true_iff.mp haccepted).2
    cases ep with
    | outEp => exact ⟨_, _, _, _, h.giveOut hsame henabled hqueue rfl⟩
    | inEp => exact ⟨_, _, _, _, h.giveIn hsame henabled hqueue rfl⟩
  · intro hrefused
    have hrefused : (ok && s.enabled ep) = false := hrefused
    rw [if_neg (by rw [hrefused]; decide)] at hqueue
    exact h.congr hsame hqueue rfl

theorem Owned.answer (h : Owned s outs ins (p :: hand) gone alone lone) (ep : Ep) (actual : Nat) :
    (s.answer ep (p.req ep) actual).2 = (ep.other, p.req ep.other) ∧
      Owned (s.answer ep (p.req ep) actual).1 outs ins (p :: hand) gone alone lone := by
  have hcontext := h.linked_hand.context ep
  cases ep with
  | inEp => exact ⟨congrArg (Prod.mk Ep.outEp) hcontext, h⟩
  | outEp =>
    refine ⟨congrArg (Prod.mk Ep.inEp) hcontext, h.congr ?_ rfl rfl⟩
    have hfield {α : Type} (f : Request → α)
        (hf : ∀ q zero length, f { q with zero := zero, length := length } = f q) (r : Nat) :
        f ((s.answer .outEp (p.req .outEp) actual).1.reqs r) = f (s.reqs r) := by
      show f (update s.reqs _ _ r) = _
      by_cases hr : r = (s.reqs (p.req .outEp)).context
      · rw [hr, update_self, hf]
      · rw [update_of_ne hr]
    exact ⟨hfield Request.context fun _ _ _ => rfl, hfield Request.buf fun _ _ _ => rfl,
      hfield Request.ep fun _ _ _ => rfl, rfl, rfl, rfl, rfl⟩

/-- **`loopback_complete`** gives the pair to the other endpoint, or frees it. -/
theorem Owned.loopbackComplete (h : Owned s outs ins (p :: hand) gone alone lone) (ep : Ep)
    (status : Int) (actual : Nat) (ok : Bool) :
    Kept (s.loopbackComplete ep (p.req ep) status actual ok) hand alone := by
  rw [State.loopbackComplete]
  split
  · obtain ⟨heq, howned⟩ := h.answer ep actual
    rcases hanswer : s.answer ep (p.req ep) actual with ⟨t, ep', req⟩
    rw [hanswer] at heq howned
    obtain ⟨rfl, rfl⟩ := Prod.mk.inj heq
    obtain ⟨haccepted, hrefused⟩ := howned.usbEpQueue ep.other ok
    rcases hqueued : t.usbEpQueue ep.other (p.req ep.other) ok with ⟨u, accepted⟩
    rw [hqueued] at haccepted hrefused
    dsimp only
    rw [hqueued]
    cases accepted with
    | true => exact haccepted rfl
    | false => exact ⟨_, _, _, _, (hrefused rfl).freeReq ep.other⟩
  · exact ⟨_, _, _, _, h.freeReq ep⟩

theorem loopbackComplete_pc (s : State) (ep : Ep) (req : Nat) (status : Int) (actual : Nat)
    (ok : Bool) : (s.loopbackComplete ep req status actual ok).pc = s.pc := by
  rw [State.loopbackComplete]
  split
  · cases ep <;> dsimp only [State.answer, State.usbEpQueue] <;> split <;> rfl
  · rfl

/-- Each OUT transfer that completed has been handed to the IN endpoint. -/
def Handed (s : State) : Prop := s.inCalls.map Prod.fst = s.received

theorem loopbackComplete_received (s : State) (ep : Ep) (req : Nat) (status : Int) (actual : Nat)
    (ok : Bool) : (s.loopbackComplete ep req status actual ok).received = s.received := by
  rw [State.loopbackComplete]
  split
  · cases ep <;> dsimp only [State.answer, State.usbEpQueue] <;> split <;> rfl
  · rfl

theorem loopbackComplete_inCalls_inEp (s : State) (req : Nat) (status : Int) (actual : Nat)
    (ok : Bool) : (s.loopbackComplete .inEp req status actual ok).inCalls = s.inCalls := by
  rw [State.loopbackComplete]
  split
  · dsimp only [State.answer, State.usbEpQueue]
    split <;> rfl
  · rfl

/-- **A completion of the OUT endpoint** hands its bytes on, if it was successful. -/
theorem loopbackComplete_inCalls_outEp (hp : Linked s.reqs p) (status : Int) (actual : Nat)
    (ok : Bool) : (s.loopbackComplete .outEp p.outReq status actual ok).inCalls.map Prod.fst =
      s.inCalls.map Prod.fst ++ if status = 0 then
        [{ bytes := (s.content p.buf).take actual
           short := decide (actual < (s.reqs p.outReq).length) }] else [] := by
  rw [State.loopbackComplete]
  split
  · have hcalls (t : State) (r : Nat) : (t.usbEpQueue .inEp r ok).1.inCalls.map Prod.fst =
        t.inCalls.map Prod.fst ++ [t.transfer r] := by
      rw [State.usbEpQueue, if_pos rfl, List.map_append, List.map_singleton]
    have htransfer : (s.answer .outEp p.outReq actual).1.transfer p.inReq =
        { bytes := (s.content p.buf).take actual
          short := decide (actual < (s.reqs p.outReq).length) } := by
      simp only [State.answer, State.transfer, update_self, hp.outContext, hp.inBuf]
    have hanswer : (s.answer .outEp p.outReq actual).2 = (.inEp, p.inReq) :=
      congrArg (Prod.mk Ep.inEp) hp.outContext
    rw [← htransfer]
    rcases hfilled : s.answer .outEp p.outReq actual with ⟨t, ep, req⟩
    rw [hfilled] at hanswer
    obtain ⟨rfl, rfl⟩ := Prod.mk.inj hanswer
    have ht : t.inCalls = s.inCalls := congrArg (fun a => a.1.inCalls) hfilled.symm
    rw [← ht, ← hcalls]
    dsimp only
    split <;> rfl
  · exact (List.append_nil _).symm

end

/-! ## Steps -/

/-- **The invariant.** -/
def Inv (s : State) : Prop := (∃ hand alone, s.pc.Holds hand alone ∧ Kept s hand alone) ∧ Handed s

theorem Inv.boot : Inv State.boot := by
  refine ⟨⟨[], [], ⟨rfl, rfl⟩, [], [], [], [], ?_⟩, rfl⟩
  constructor <;> simp [State.boot]

variable {L : Loop} {s t : State}

theorem Inv.outDone (h : Inv s) {req : Nat} {rest : List Nat}
    (hqueue : s.queue .outEp = req :: rest) (status : Int) (data : List UInt8)
    (ok : Bool) : Inv (s.outDone req rest status data ok) := by
  obtain ⟨⟨hand, alone, hpc, outs, ins, gone, lone, howned⟩, hhanded⟩ := h
  have houts := howned.outQueue
  rw [hqueue] at houts
  obtain ⟨p, outs, rfl, rfl, rfl⟩ := List.map_eq_cons_iff.mp houts.symm
  set t : State := { s with
    queue := update s.queue .outEp (outs.map Pair.outReq)
    content := update s.content (s.reqs p.outReq).buf
      (data ++ (s.content (s.reqs p.outReq).buf).drop data.length)
    received := if status = 0 then
      s.received ++ [{ bytes := data, short := decide (data.length < (s.reqs p.outReq).length) }]
      else s.received } with ht
  have htaken : Owned t outs ins (p :: hand) gone alone lone :=
    howned.takeOut (SameMemory.of_eq rfl rfl rfl rfl rfl) rfl rfl
  have hdone : s.outDone p.outReq (outs.map Pair.outReq) status data ok =
      t.loopbackComplete .outEp p.outReq status data.length ok := rfl
  rw [hdone]
  refine ⟨⟨hand, alone, ?_, htaken.loopbackComplete .outEp status _ ok⟩, ?_⟩
  · rw [loopbackComplete_pc]
    exact hpc
  · rw [Handed, loopbackComplete_inCalls_outEp htaken.linked_hand, loopbackComplete_received]
    have hbytes : (t.content p.buf).take data.length = data := by
      rw [← htaken.linked_hand.outBuf, ht]
      show (update s.content (s.reqs p.outReq).buf _ (s.reqs p.outReq).buf).take _ = _
      rw [update_self, List.take_left]
    have hcalls : t.inCalls.map Prod.fst = s.received := hhanded
    rw [hbytes, hcalls]
    show _ = if status = 0 then _ else _
    split
    · rfl
    · exact List.append_nil _

theorem Inv.inDone (h : Inv s) {req : Nat} {rest : List Nat}
    (hqueue : s.queue .inEp = req :: rest) (status : Int) (ok : Bool) :
    Inv (s.inDone req rest status ok) := by
  obtain ⟨⟨hand, alone, hpc, outs, ins, gone, lone, howned⟩, hhanded⟩ := h
  have hins := howned.inQueue
  rw [hqueue] at hins
  obtain ⟨p, ins, rfl, rfl, rfl⟩ := List.map_eq_cons_iff.mp hins.symm
  set t : State := { s with queue := update s.queue .inEp (ins.map Pair.inReq) }
  have htaken : Owned t outs ins (p :: hand) gone alone lone :=
    howned.takeIn (SameMemory.of_eq rfl rfl rfl rfl rfl) rfl rfl
  have hdone : s.inDone p.inReq (ins.map Pair.inReq) status ok =
      t.loopbackComplete .inEp p.inReq status (s.reqs p.inReq).length ok := rfl
  rw [hdone]
  refine ⟨⟨hand, alone, ?_, htaken.loopbackComplete .inEp status _ ok⟩, ?_⟩
  · rw [loopbackComplete_pc]
    exact hpc
  · rw [Handed, loopbackComplete_inCalls_inEp, loopbackComplete_received]
    exact hhanded

theorem Inv.congr (h : Inv s) (hsame : SameMemory s t) (hqueue : t.queue = s.queue)
    (henabled : ∀ ep, t.enabled ep = false → s.enabled ep = false ∨ s.queue ep = [])
    (hpc : ∀ hand alone, s.pc.Holds hand alone → t.pc.Holds hand alone)
    (hreceived : t.received = s.received) (hcalls : t.inCalls = s.inCalls) : Inv t := by
  obtain ⟨⟨hand, alone, hholds, outs, ins, gone, lone, howned⟩, hhanded⟩ := h
  refine ⟨⟨hand, alone, hpc hand alone hholds, outs, ins, gone, lone, ?_⟩, ?_⟩
  · refine howned.move hsame (List.Perm.refl _) ?_ ?_ fun ep hep => ?_
    · rw [hqueue, howned.outQueue]
    · rw [hqueue, howned.inQueue]
    · rw [hqueue]
      exact (henabled ep hep).elim (howned.disabled ep) id
  · rw [Handed, hcalls, hreceived]
    exact hhanded

/-- Nothing is in hand before this call. -/
def Pc.Empty : Pc → Prop
  | .allocOut _ _ => False
  | .queueOut _ _ _ => False
  | _ => True

theorem Pc.Empty.holds_iff {pc : Pc} (h : pc.Empty) {hand : List Pair} {alone : List Nat} :
    pc.Holds hand alone ↔ hand = [] ∧ alone = [] := by
  cases pc with
  | allocOut i r => exact h.elim
  | queueOut i r o => exact h.elim
  | _ => exact Iff.rfl

theorem Inv.goto (h : Inv s) (hs : s.pc.Empty) {pc : Pc} (hpc : pc.Empty) {enabled : Ep → Bool}
    (henabled : ∀ ep, enabled ep = false → s.enabled ep = false ∨ s.queue ep = []) :
    Inv { s with enabled := enabled, pc := pc } := by
  refine h.congr (SameMemory.of_eq rfl rfl rfl rfl rfl) rfl henabled (fun hand alone hholds => ?_)
    rfl rfl
  exact hpc.holds_iff.mpr (hs.holds_iff.mp hholds)

theorem Inv.disabled (h : Inv s) (hs : s.pc.Empty) {pc : Pc} (hpc : pc.Empty) {ep : Ep}
    (hqueue : s.queue ep = []) (ok : Bool) : Inv (s.disabled ep ok pc) := by
  refine h.goto hs hpc fun ep' hep' => ?_
  by_cases hne : ep' = ep
  · exact Or.inr (hne ▸ hqueue)
  · refine Or.inl ?_
    cases ok with
    | true =>
      rw [if_pos rfl] at hep'
      exact (update_of_ne hne false s.enabled).symm.trans hep'
    | false => exact hep'

theorem Inv.enable (h : Inv s) (hs : s.pc.Empty) {pc : Pc} (hpc : pc.Empty) (ep : Ep) :
    Inv (s.enable ep pc) := by
  refine h.goto hs hpc fun ep' hep' => Or.inl ?_
  by_cases hne : ep' = ep
  · rw [hne, update_self] at hep'
    cases hep'
  · exact (update_of_ne hne true s.enabled).symm.trans hep'

theorem Inv.queueOut (h : Inv s) {i inReq outReq : Nat} (hpc : s.pc = .queueOut i inReq outReq)
    (ok : Bool) : Inv (s.queueOut i inReq outReq ok) := by
  obtain ⟨⟨hand, alone, hholds, outs, ins, gone, lone, howned⟩, hhanded⟩ := h
  rw [hpc] at hholds
  obtain ⟨⟨buf, rfl⟩, rfl⟩ := hholds
  obtain ⟨haccepted, hrefused⟩ := howned.usbEpQueue .outEp ok
  have hsame : Handed (s.usbEpQueue .outEp outReq ok).1 := hhanded
  rw [State.queueOut]
  rcases hqueued : s.usbEpQueue .outEp outReq ok with ⟨t, accepted⟩
  have hqueued' : s.usbEpQueue .outEp (Pair.req ⟨inReq, outReq, buf⟩ .outEp) ok = (t, accepted) :=
    hqueued
  rw [hqueued'] at haccepted hrefused
  rw [hqueued] at hsame
  cases accepted with
  | true =>
    obtain ⟨outs, ins, gone, lone, howned⟩ := haccepted rfl
    exact ⟨⟨[], [], ⟨rfl, rfl⟩, outs, ins, gone, lone,
      howned.congr (SameMemory.of_eq rfl rfl rfl rfl rfl) rfl rfl⟩, hsame⟩
  | false =>
    have hrefused := hrefused rfl
    refine ⟨⟨[], [], ⟨rfl, rfl⟩, outs, ins, _, lone,
      hrefused.free rfl rfl rfl (List.Perm.refl _) ?_ rfl rfl⟩, hsame⟩
    exact congrArg (· :: t.bufFrees) hrefused.linked_hand.outBuf

/-- The next call of `loopback_set_alt` or `loopback_disable`. -/
theorem Inv.advance (h : Inv s) {ok : Bool} (hadvance : s.advance L ok = some t) : Inv t := by
  rw [State.advance] at hadvance
  cases hpc : s.pc with
  | idle =>
    rw [hpc] at hadvance
    cases hadvance
  | disabling todo enable =>
    have hempty : s.pc.Empty := hpc ▸ trivial
    rw [hpc] at hadvance
    cases todo with
    | nil =>
      obtain rfl := Option.some.inj hadvance
      exact h.goto hempty (by cases enable <;> trivial) fun _ => Or.inl
    | cons ep todo =>
      obtain ⟨hqueue, heq⟩ := Option.ite_none_right_eq_some.mp hadvance
      exact Option.some.inj heq ▸ h.disabled hempty (by trivial) hqueue ok
  | enabling ep =>
    have hempty : s.pc.Empty := hpc ▸ trivial
    rw [hpc] at hadvance
    cases ep with
    | inEp =>
      obtain rfl := Option.some.inj hadvance
      split
      · exact h.enable hempty (by trivial) .inEp
      · exact h.goto hempty (by trivial) fun _ => Or.inl
    | outEp =>
      obtain rfl := Option.some.inj hadvance
      split
      · exact h.enable hempty (by trivial) .outEp
      · exact h.goto hempty (by trivial) fun _ => Or.inl
  | allocIn i =>
    have hempty : s.pc.Empty := hpc ▸ trivial
    rw [hpc] at hadvance
    obtain rfl := Option.some.inj hadvance
    split_ifs
    · obtain ⟨⟨hand, alone, hholds, outs, ins, gone, lone, howned⟩, hhanded⟩ := h
      obtain ⟨rfl, rfl⟩ := hempty.holds_iff.mp hholds
      exact ⟨⟨[], [s.nextReq], ⟨rfl, rfl⟩, outs, ins, gone, lone, howned.allocIn i⟩, hhanded⟩
    · exact h.goto hempty (by trivial) fun _ => Or.inl
    · exact h.goto hempty (by trivial) fun _ => Or.inl
  | allocOut i inReq =>
    rw [hpc] at hadvance
    obtain rfl := Option.some.inj hadvance
    obtain ⟨⟨hand, alone, hholds, outs, ins, gone, lone, howned⟩, hhanded⟩ := h
    rw [hpc] at hholds
    obtain ⟨rfl, rfl⟩ := hholds
    split
    · exact ⟨⟨_, [], ⟨⟨s.nextBuf, rfl⟩, rfl⟩, outs, ins, gone, lone, howned.allocOut L i⟩, hhanded⟩
    · refine ⟨⟨[], [], ⟨rfl, rfl⟩, outs, ins, gone, inReq :: lone, ?_⟩, hhanded⟩
      exact howned.freeAlone.congr (SameMemory.of_eq rfl rfl rfl rfl rfl) rfl rfl
  | queueOut i inReq outReq =>
    rw [hpc] at hadvance
    obtain rfl := Option.some.inj hadvance
    exact h.queueOut hpc ok

/-- **One event** keeps the invariant of the pairs. -/
theorem Inv.step {e : Event} (h : Inv s) (hstep : step L s e = some t) : Inv t := by
  cases e with
  | setAlt first =>
    obtain ⟨hidle, heq⟩ := Option.ite_none_right_eq_some.mp hstep
    obtain rfl := Option.some.inj heq
    exact h.goto (hidle ▸ trivial) (by trivial) fun _ => Or.inl
  | disable first =>
    obtain ⟨hidle, heq⟩ := Option.ite_none_right_eq_some.mp hstep
    obtain rfl := Option.some.inj heq
    exact h.goto (hidle ▸ trivial) (by trivial) fun _ => Or.inl
  | advance ok => exact h.advance hstep
  | outDone status data ok =>
    rw [Loopback.step] at hstep
    split at hstep
    · cases hstep
    · rename_i hqueue
      exact Option.some.inj hstep ▸ h.outDone hqueue status data ok
  | inDone status ok =>
    rw [Loopback.step] at hstep
    split at hstep
    · cases hstep
    · rename_i hqueue
      exact Option.some.inj hstep ▸ h.inDone hqueue status ok

/-! ## Conservation -/

/-- The requests that are queued on either endpoint. -/
def State.queued (s : State) : List Nat := s.queue .outEp ++ s.queue .inEp

/-- **What the function guarantees.** -/
structure Conserved (s : State) : Prop where
  /-- What is handed to the IN endpoint are the OUT transfers, in order and with their ends. -/
  handed : s.inCalls.map Prod.fst = s.received
  /-- It is queued there unless `usb_ep_queue` fails. -/
  accepted : (∀ c ∈ s.inCalls, c.2 = true) → s.queuedIn = s.received
  /-- One request of a pair at most is queued, and once. -/
  one_queued : ∀ r ∈ s.queued, s.queued.count r = 1 ∧ (s.reqs r).context ∉ s.queued
  freed_once : (s.reqFrees.map Prod.snd).Nodup ∧ s.bufFrees.Nodup
  freed_ep : ∀ e ∈ s.reqFrees, (s.reqs e.2).ep = e.1
  /-- Nothing is freed of a pair that is queued. -/
  queued_live : ∀ r ∈ s.queued, r ∉ s.reqFrees.map Prod.snd ∧
    (s.reqs r).context ∉ s.reqFrees.map Prod.snd ∧ (s.reqs r).buf ∉ s.bufFrees
  /-- An endpoint that is disabled has nothing queued. -/
  disabled : ∀ ep, s.enabled ep = false → s.queue ep = []
  /-- When nothing runs and nothing is queued, all has been freed. -/
  all_freed : s.pc = .idle → s.queued = [] →
    (∀ r < s.nextReq, r ∈ s.reqFrees.map Prod.snd) ∧ ∀ b < s.nextBuf, b ∈ s.bufFrees

section

variable {outs ins hand gone : List Pair} {alone lone : List Nat}

/-- The pairs that an endpoint has. -/
def side (outs ins : List Pair) : Ep → List Pair
  | .outEp => outs
  | .inEp => ins

theorem Owned.queue_eq (h : Owned s outs ins hand gone alone lone) (ep : Ep) :
    s.queue ep = (side outs ins ep).map fun p => p.req ep := by
  cases ep with
  | outEp => exact h.outQueue
  | inEp => exact h.inQueue

theorem mem_queued {r : Nat} : r ∈ s.queued ↔ ∃ ep, r ∈ s.queue ep := by
  rw [State.queued, List.mem_append]
  constructor
  · rintro (hr | hr)
    · exact ⟨_, hr⟩
    · exact ⟨_, hr⟩
  · rintro ⟨ep, hr⟩
    cases ep with
    | outEp => exact Or.inl hr
    | inEp => exact Or.inr hr

/-- **A request counts once** among those that are queued, the partners of those that are queued on
an endpoint, and those that are freed. -/
theorem Owned.count_le (h : Owned s outs ins hand gone alone lone) (ep : Ep) (r : Nat) :
    s.queued.count r + ((side outs ins ep).map fun p => p.req ep.other).count r +
      (s.reqFrees.map Prod.snd).count r ≤ 1 := by
  have htotal : cnt Pair.reqs outs r + cnt Pair.reqs ins r + cnt Pair.reqs hand r +
      cnt Pair.reqs gone r + alone.count r + lone.count r ≤ 1 := by
    rw [h.reqs]
    split <;> decide
  rw [cnt_reqs outs, cnt_reqs ins] at htotal
  rw [State.queued, List.count_append, h.outQueue, h.inQueue, h.reqFrees]
  cases ep with
  | outEp =>
    show _ + (outs.map Pair.inReq).count r + _ ≤ 1
    omega
  | inEp =>
    show _ + (ins.map Pair.outReq).count r + _ ≤ 1
    omega

theorem Owned.buf_not_freed (h : Owned s outs ins hand gone alone lone) {ep : Ep} {p : Pair}
    (hp : p ∈ side outs ins ep) : p.buf ∉ s.bufFrees := by
  rw [← List.count_eq_zero, h.bufFrees]
  have htotal : cnt Pair.bufs outs p.buf + cnt Pair.bufs ins p.buf + cnt Pair.bufs hand p.buf +
      cnt Pair.bufs gone p.buf ≤ 1 := by
    rw [h.bufs]
    split <;> decide
  have hpos : 0 < cnt Pair.bufs (side outs ins ep) p.buf := cnt_pos hp List.mem_cons_self
  cases ep with
  | outEp =>
    have hpos : 0 < cnt Pair.bufs outs p.buf := hpos
    omega
  | inEp =>
    have hpos : 0 < cnt Pair.bufs ins p.buf := hpos
    omega

theorem Owned.of_queued (h : Owned s outs ins hand gone alone lone) {r : Nat}
    (hr : r ∈ s.queued) :
    (s.queued.count r = 1 ∧ (s.reqs r).context ∉ s.queued) ∧ r ∉ s.reqFrees.map Prod.snd ∧
      (s.reqs r).context ∉ s.reqFrees.map Prod.snd ∧ (s.reqs r).buf ∉ s.bufFrees := by
  have hpos := List.count_pos_iff.mpr hr
  obtain ⟨ep, hr⟩ := mem_queued.mp hr
  rw [h.queue_eq ep] at hr
  obtain ⟨p, hp, rfl⟩ := List.mem_map.mp hr
  have hlinked : Linked s.reqs p := by
    cases ep with
    | outEp => exact h.linked p (.inl hp)
    | inEp => exact h.linked p (.inr (.inl hp))
  have hself := h.count_le ep (p.req ep)
  have hpartner := h.count_le ep (p.req ep.other)
  have hpos' : 0 < ((side outs ins ep).map fun p => p.req ep.other).count (p.req ep.other) :=
    List.count_pos_iff.mpr (List.mem_map.mpr ⟨p, hp, rfl⟩)
  rw [hlinked.context, hlinked.buf]
  refine ⟨⟨by omega, ?_⟩, ?_, ?_, h.buf_not_freed hp⟩
  all_goals
    rw [← List.count_eq_zero]
    omega

theorem Owned.nodup_frees (h : Owned s outs ins hand gone alone lone) :
    (s.reqFrees.map Prod.snd).Nodup ∧ s.bufFrees.Nodup := by
  constructor
  · refine List.nodup_iff_count_le_one.mpr fun r => ?_
    have hcount := h.count_le .outEp r
    omega
  · refine List.nodup_iff_count_le_one.mpr fun b => ?_
    have htotal := h.bufs b
    rw [h.bufFrees]
    split at htotal <;> omega

theorem Owned.all_freed (h : Owned s outs ins [] gone [] lone) (hqueued : s.queued = []) :
    (∀ r < s.nextReq, r ∈ s.reqFrees.map Prod.snd) ∧ ∀ b < s.nextBuf, b ∈ s.bufFrees := by
  obtain ⟨hout, hin⟩ := List.append_eq_nil_iff.mp hqueued
  rw [h.outQueue, List.map_eq_nil_iff] at hout
  rw [h.inQueue, List.map_eq_nil_iff] at hin
  subst hout hin
  constructor
  · intro r hr
    have htotal := h.reqs r
    simp only [cnt_nil, List.count_nil, if_pos hr] at htotal
    refine List.count_pos_iff.mp ?_
    rw [h.reqFrees]
    omega
  · intro b hb
    have htotal := h.bufs b
    simp only [cnt_nil, if_pos hb] at htotal
    refine List.count_pos_iff.mp ?_
    rw [h.bufFrees]
    omega

end

theorem Inv.conserved (h : Inv s) : Conserved s := by
  obtain ⟨⟨hand, alone, hholds, outs, ins, gone, lone, howned⟩, hhanded⟩ := h
  exact {
    handed := hhanded
    accepted := by
      intro hall
      rw [State.queuedIn, List.filter_eq_self.mpr hall]
      exact hhanded
    one_queued := fun r hr => (howned.of_queued hr).1
    freed_once := howned.nodup_frees
    freed_ep := howned.ownEp
    queued_live := fun r hr => (howned.of_queued hr).2
    disabled := howned.disabled
    all_freed := by
      intro hidle
      rw [hidle] at hholds
      obtain ⟨rfl, rfl⟩ := hholds
      exact howned.all_freed }

/-- **Conservation** in every state of every run. -/
theorem conserved_of_run (L : Loop) (es : List Event) (t : State)
    (hrun : exec (Loopback.step L) State.boot es = some t) : Conserved t :=
  (exec_invariant (fun _ _ _ h _ hstep => Inv.step h hstep) Inv.boot
    (Along.of_forall (C := fun _ _ => True) fun _ _ => trivial) hrun).conserved

/-- The function with one pair of requests. -/
def onePair : Loop where
  qlen := 1
  buflen := 64
  align := id

/-- Three bytes come, the IN endpoint refuses them, and the function is disabled. -/
def refused : List Event :=
  .setAlt .inEp :: List.replicate 9 (.advance true) ++
    .outDone 0 [1, 2, 3] false :: .disable .inEp :: List.replicate 3 (.advance true)

/-- Both requests and the buffer have been freed. -/
theorem conserved_refused : ∃ t, exec (step onePair) State.boot refused = some t ∧ Conserved t ∧
    t.pc = .idle ∧ t.reqFrees = [(.inEp, 0), (.outEp, 1)] ∧ t.bufFrees = [0] := by
  have hrun : (exec (step onePair) State.boot refused).map
      (fun t => (t.pc, t.reqFrees, t.bufFrees)) =
      some (.idle, [(.inEp, 0), (.outEp, 1)], [0]) := rfl
  obtain ⟨t, ht, heq⟩ := Option.map_eq_some_iff.mp hrun
  obtain ⟨hpc, hfrees⟩ := Prod.mk.inj heq
  exact ⟨t, ht, conserved_of_run onePair refused t ht, hpc, (Prod.mk.inj hfrees).1,
    (Prod.mk.inj hfrees).2⟩

/-- The three bytes have been received, and are not queued. -/
theorem queuedIn_lost : ¬ ∀ (L : Loop) (es : List Event) (t : State),
    exec (step L) State.boot es = some t → t.queuedIn = t.received := by
  intro hclaim
  have hrun : (exec (step onePair) State.boot refused).map (fun t => (t.queuedIn, t.received)) =
      some ([], [{ bytes := [1, 2, 3], short := true }]) := rfl
  obtain ⟨t, ht, heq⟩ := Option.map_eq_some_iff.mp hrun
  have hsame := hclaim onePair refused t ht
  rw [(Prod.mk.inj heq).1, (Prod.mk.inj heq).2] at hsame
  cases hsame

end RealtekIpcam.Gadget.Loopback
