import RealtekIpcam.Gadget.Loopback

/-!
# Who holds a pair of loopback requests

Each pair of requests is in one place: with the OUT endpoint, with the IN endpoint, in the hand of
the code that runs, or gone.  `Owned` says so by counting, over all places together: each request
and each buffer that was allocated is counted once, and those that are gone have been freed once.

Every operation moves one pair from one place to another, and has one lemma here.  Which pairs the
running function has in hand is read off the call it makes next, `Pc.Holds`.
-/

namespace RealtekIpcam.Gadget.Loopback

open Function

/-! ## Pairs -/

/-- A pair of requests, and their buffer. -/
structure Pair where
  inReq : Nat
  outReq : Nat
  buf : Nat

def Pair.reqs (p : Pair) : List Nat := [p.inReq, p.outReq]

def Pair.bufs (p : Pair) : List Nat := [p.buf]

/-- How often a number is among those of the pairs. -/
def cnt (f : Pair → List Nat) (l : List Pair) (r : Nat) : Nat := (l.flatMap f).count r

section

variable {f : Pair → List Nat} {l m : List Pair} {p : Pair} {r : Nat}

@[simp] theorem cnt_nil : cnt f [] r = 0 := rfl

@[simp] theorem cnt_cons : cnt f (p :: l) r = (f p).count r + cnt f l r := by
  rw [cnt, List.flatMap_cons, List.count_append]
  rfl

@[simp] theorem cnt_append : cnt f (l ++ m) r = cnt f l r + cnt f m r := by
  rw [cnt, List.flatMap_append, List.count_append]
  rfl

theorem count_reqs (p : Pair) (r : Nat) :
    p.reqs.count r = [p.inReq].count r + [p.outReq].count r := by
  show ([p.inReq] ++ [p.outReq]).count r = _
  rw [List.count_append]

theorem cnt_reqs (l : List Pair) (r : Nat) :
    cnt Pair.reqs l r = (l.map Pair.inReq).count r + (l.map Pair.outReq).count r := by
  induction l with
  | nil => rfl
  | cons p l ih =>
    show ((p.reqs ++ l.flatMap Pair.reqs).count r) =
      ([p.inReq] ++ l.map Pair.inReq).count r + ([p.outReq] ++ l.map Pair.outReq).count r
    rw [List.count_append, List.count_append, List.count_append, count_reqs]
    have ih : (l.flatMap Pair.reqs).count r = _ := ih
    omega

end

/-- The requests of the pair point at each other, share its buffer, and were allocated for their
endpoints. -/
structure Linked (reqs : Nat → Request) (p : Pair) : Prop where
  inContext : (reqs p.inReq).context = p.outReq
  outContext : (reqs p.outReq).context = p.inReq
  inBuf : (reqs p.inReq).buf = p.buf
  outBuf : (reqs p.outReq).buf = p.buf
  inEp : (reqs p.inReq).ep = .inEp
  outEp : (reqs p.outReq).ep = .outEp

/-- What the function has in hand before its next call: a pair, or an IN request on its own. -/
def Pc.Holds (hand : List Pair) (alone : List Nat) : Pc → Prop
  | .allocOut _ inReq => hand = [] ∧ alone = [inReq]
  | .queueOut _ inReq outReq => (∃ buf, hand = [⟨inReq, outReq, buf⟩]) ∧ alone = []
  | _ => hand = [] ∧ alone = []

/-- **Each pair is in one place.**  The lists are the pairs that the endpoints have, those in hand,
and those that are gone; and the IN requests on their own, in hand and gone. -/
structure Owned (s : State) (outs ins hand gone : List Pair) (alone lone : List Nat) : Prop where
  outQueue : s.queue .outEp = outs.map Pair.outReq
  inQueue : s.queue .inEp = ins.map Pair.inReq
  disabled : ∀ ep, s.enabled ep = false → s.queue ep = []
  linked : ∀ p, p ∈ outs ∨ p ∈ ins ∨ p ∈ hand → Linked s.reqs p
  aloneEp : ∀ r ∈ alone, (s.reqs r).ep = .inEp
  reqs : ∀ r, cnt Pair.reqs outs r + cnt Pair.reqs ins r + cnt Pair.reqs hand r +
    cnt Pair.reqs gone r + alone.count r + lone.count r = if r < s.nextReq then 1 else 0
  bufs : ∀ b, cnt Pair.bufs outs b + cnt Pair.bufs ins b + cnt Pair.bufs hand b +
    cnt Pair.bufs gone b = if b < s.nextBuf then 1 else 0
  reqFrees : ∀ r, (s.reqFrees.map Prod.snd).count r = cnt Pair.reqs gone r + lone.count r
  bufFrees : ∀ b, s.bufFrees.count b = cnt Pair.bufs gone b
  /-- A request is freed for the endpoint that it was allocated for. -/
  ownEp : ∀ e ∈ s.reqFrees, (s.reqs e.2).ep = e.1

/-- The requests are linked as before, and nothing is allocated or freed. -/
structure SameMemory (s t : State) : Prop where
  context : ∀ r, (t.reqs r).context = (s.reqs r).context
  buf : ∀ r, (t.reqs r).buf = (s.reqs r).buf
  ep : ∀ r, (t.reqs r).ep = (s.reqs r).ep
  nextReq : t.nextReq = s.nextReq
  nextBuf : t.nextBuf = s.nextBuf
  reqFrees : t.reqFrees = s.reqFrees
  bufFrees : t.bufFrees = s.bufFrees

theorem SameMemory.of_eq {s t : State} (hreqs : t.reqs = s.reqs) (hnextReq : t.nextReq = s.nextReq)
    (hnextBuf : t.nextBuf = s.nextBuf) (hreqFrees : t.reqFrees = s.reqFrees)
    (hbufFrees : t.bufFrees = s.bufFrees) : SameMemory s t where
  context := fun _ => by rw [hreqs]
  buf := fun _ => by rw [hreqs]
  ep := fun _ => by rw [hreqs]
  nextReq := hnextReq
  nextBuf := hnextBuf
  reqFrees := hreqFrees
  bufFrees := hbufFrees

/-! ## Moves -/

section

variable {s t : State} {outs ins hand gone outs' ins' hand' : List Pair} {alone lone : List Nat}
  {p : Pair}

theorem SameMemory.linked (h : SameMemory s t) (hp : Linked s.reqs p) : Linked t.reqs p where
  inContext := (h.context _).trans hp.inContext
  outContext := (h.context _).trans hp.outContext
  inBuf := (h.buf _).trans hp.inBuf
  outBuf := (h.buf _).trans hp.outBuf
  inEp := (h.ep _).trans hp.inEp
  outEp := (h.ep _).trans hp.outEp

/-- Pairs move between the queues and the hand. -/
theorem Owned.move (h : Owned s outs ins hand gone alone lone) (hsame : SameMemory s t)
    (hperm : (outs' ++ ins' ++ hand').Perm (outs ++ ins ++ hand))
    (hout : t.queue .outEp = outs'.map Pair.outReq) (hin : t.queue .inEp = ins'.map Pair.inReq)
    (hdisabled : ∀ ep, t.enabled ep = false → t.queue ep = []) :
    Owned t outs' ins' hand' gone alone lone where
  outQueue := hout
  inQueue := hin
  disabled := hdisabled
  linked := by
    intro q hq
    refine hsame.linked (h.linked q ?_)
    have hmem : q ∈ outs ++ ins ++ hand :=
      hperm.subset (by simpa only [List.mem_append, or_assoc] using hq)
    simpa only [List.mem_append, or_assoc] using hmem
  aloneEp := fun r hr => (hsame.ep r).trans (h.aloneEp r hr)
  reqs := by
    intro r
    have hcount := (hperm.flatMap_right Pair.reqs).count_eq r
    have hcount : cnt Pair.reqs _ r = cnt Pair.reqs _ r := hcount
    rw [cnt_append, cnt_append, cnt_append, cnt_append] at hcount
    rw [hcount, hsame.nextReq]
    exact h.reqs r
  bufs := by
    intro b
    have hcount := (hperm.flatMap_right Pair.bufs).count_eq b
    have hcount : cnt Pair.bufs _ b = cnt Pair.bufs _ b := hcount
    rw [cnt_append, cnt_append, cnt_append, cnt_append] at hcount
    rw [hcount, hsame.nextBuf]
    exact h.bufs b
  reqFrees := by
    rw [hsame.reqFrees]
    exact h.reqFrees
  bufFrees := by
    rw [hsame.bufFrees]
    exact h.bufFrees
  ownEp := by
    rw [hsame.reqFrees]
    exact fun e he => (hsame.ep e.2).trans (h.ownEp e he)

theorem Owned.congr (h : Owned s outs ins hand gone alone lone) (hsame : SameMemory s t)
    (hqueue : t.queue = s.queue) (henabled : t.enabled = s.enabled) :
    Owned t outs ins hand gone alone lone :=
  h.move hsame (List.Perm.refl _) (by rw [hqueue, h.outQueue]) (by rw [hqueue, h.inQueue])
    (by rw [henabled, hqueue]; exact h.disabled)

theorem Owned.takeOut (h : Owned s (p :: outs) ins hand gone alone lone) (hsame : SameMemory s t)
    (hqueue : t.queue = update s.queue .outEp (outs.map Pair.outReq))
    (henabled : t.enabled = s.enabled) : Owned t outs ins (p :: hand) gone alone lone := by
  refine h.move hsame List.perm_middle ?_ ?_ fun ep hep => ?_
  · rw [hqueue, update_self]
  · rw [hqueue]
    exact h.inQueue
  · rw [henabled] at hep
    have hempty := h.disabled ep hep
    cases ep with
    | outEp =>
      rw [h.outQueue] at hempty
      cases hempty
    | inEp =>
      rw [hqueue]
      exact hempty

theorem Owned.takeIn (h : Owned s outs (p :: ins) hand gone alone lone) (hsame : SameMemory s t)
    (hqueue : t.queue = update s.queue .inEp (ins.map Pair.inReq))
    (henabled : t.enabled = s.enabled) : Owned t outs ins (p :: hand) gone alone lone := by
  refine h.move hsame (List.perm_middle.trans (List.perm_middle.append_right hand).symm) ?_ ?_
    fun ep hep => ?_
  · rw [hqueue]
    exact h.outQueue
  · rw [hqueue, update_self]
  · rw [henabled] at hep
    have hempty := h.disabled ep hep
    cases ep with
    | outEp =>
      rw [hqueue]
      exact hempty
    | inEp =>
      rw [h.inQueue] at hempty
      cases hempty

theorem Owned.giveOut (h : Owned s outs ins (p :: hand) gone alone lone) (hsame : SameMemory s t)
    (hep : s.enabled .outEp = true)
    (hqueue : t.queue = update s.queue .outEp (s.queue .outEp ++ [p.outReq]))
    (henabled : t.enabled = s.enabled) : Owned t (outs ++ [p]) ins hand gone alone lone := by
  have hperm : (outs ++ [p] ++ ins ++ hand).Perm (outs ++ ins ++ p :: hand) := by
    rw [List.append_assoc outs, List.singleton_append]
    exact (List.perm_middle.append_right hand).trans List.perm_middle.symm
  refine h.move hsame hperm ?_ ?_ fun ep hep' => ?_
  · rw [hqueue, update_self, h.outQueue, List.map_append, List.map_singleton]
  · rw [hqueue]
    exact h.inQueue
  · rw [henabled] at hep'
    cases ep with
    | outEp => exact absurd (hep.symm.trans hep') (by decide)
    | inEp =>
      rw [hqueue]
      exact h.disabled .inEp hep'

theorem Owned.giveIn (h : Owned s outs ins (p :: hand) gone alone lone) (hsame : SameMemory s t)
    (hep : s.enabled .inEp = true)
    (hqueue : t.queue = update s.queue .inEp (s.queue .inEp ++ [p.inReq]))
    (henabled : t.enabled = s.enabled) : Owned t outs (ins ++ [p]) hand gone alone lone := by
  have hperm : (outs ++ (ins ++ [p]) ++ hand).Perm (outs ++ ins ++ p :: hand) := by
    rw [← List.append_assoc, List.append_assoc _ [p], List.singleton_append]
  refine h.move hsame hperm ?_ ?_ fun ep hep' => ?_
  · rw [hqueue]
    exact h.outQueue
  · rw [hqueue, update_self, h.inQueue, List.map_append, List.map_singleton]
  · rw [henabled] at hep'
    cases ep with
    | outEp =>
      rw [hqueue]
      exact h.disabled .outEp hep'
    | inEp => exact absurd (hep.symm.trans hep') (by decide)

/-! ## Frees and allocations -/

/-- A pair is freed. -/
theorem Owned.free (h : Owned s outs ins (p :: hand) gone alone lone) (hreqs : t.reqs = s.reqs)
    (hnextReq : t.nextReq = s.nextReq) (hnextBuf : t.nextBuf = s.nextBuf)
    (hreqFrees : t.reqFrees.Perm ((.inEp, p.inReq) :: (.outEp, p.outReq) :: s.reqFrees))
    (hbufFrees : t.bufFrees = p.buf :: s.bufFrees) (hqueue : t.queue = s.queue)
    (henabled : t.enabled = s.enabled) : Owned t outs ins hand (p :: gone) alone lone where
  outQueue := by rw [hqueue, h.outQueue]
  inQueue := by rw [hqueue, h.inQueue]
  disabled := by
    rw [henabled, hqueue]
    exact h.disabled
  linked := by
    rw [hreqs]
    rintro q (hq | hq | hq)
    · exact h.linked q (.inl hq)
    · exact h.linked q (.inr (.inl hq))
    · exact h.linked q (.inr (.inr (List.mem_cons_of_mem _ hq)))
  aloneEp := by
    rw [hreqs]
    exact h.aloneEp
  reqs := by
    intro r
    have hr := h.reqs r
    rw [cnt_cons] at hr ⊢
    rw [hnextReq, ← hr]
    omega
  bufs := by
    intro b
    have hb := h.bufs b
    rw [cnt_cons] at hb ⊢
    rw [hnextBuf, ← hb]
    omega
  reqFrees := by
    intro r
    have hperm := (hreqFrees.map Prod.snd).count_eq r
    have hcount : (p.reqs ++ s.reqFrees.map Prod.snd).count r =
        p.reqs.count r + (cnt Pair.reqs gone r + lone.count r) := by
      rw [List.count_append, h.reqFrees]
    rw [cnt_cons, hperm]
    exact hcount.trans (by omega)
  bufFrees := by
    intro b
    have hcount : (p.bufs ++ s.bufFrees).count b = p.bufs.count b + cnt Pair.bufs gone b := by
      rw [List.count_append, h.bufFrees]
    rw [hbufFrees, cnt_cons]
    exact hcount
  ownEp := by
    rw [hreqs]
    have hp := h.linked p (.inr (.inr List.mem_cons_self))
    intro e he
    rcases List.mem_cons.mp (hreqFrees.subset he) with rfl | he
    · exact hp.inEp
    · rcases List.mem_cons.mp he with rfl | he
      · exact hp.outEp
      · exact h.ownEp e he

theorem Owned.freeAlone {r : Nat} (h : Owned s outs ins hand gone [r] lone) :
    Owned (s.usbEpFreeRequest .inEp r) outs ins hand gone [] (r :: lone) where
  outQueue := h.outQueue
  inQueue := h.inQueue
  disabled := h.disabled
  linked := h.linked
  aloneEp := nofun
  reqs := by
    intro q
    have hq := h.reqs q
    rw [← List.singleton_append, List.count_append, List.count_nil]
    exact Eq.trans (by omega) hq
  bufs := h.bufs
  reqFrees := by
    intro q
    have hq := h.reqFrees q
    show ([r] ++ s.reqFrees.map Prod.snd).count q = cnt Pair.reqs gone q + ([r] ++ lone).count q
    rw [List.count_append, List.count_append]
    omega
  bufFrees := h.bufFrees
  ownEp := by
    intro e he
    rcases List.mem_cons.mp he with rfl | he
    · exact h.aloneEp r List.mem_cons_self
    · exact h.ownEp e he

theorem cnt_pos {f : Pair → List Nat} {l : List Pair} {r : Nat} (hp : p ∈ l) (hr : r ∈ f p) :
    0 < cnt f l r :=
  List.count_pos_iff.mpr (List.mem_flatMap.mpr ⟨p, hp, hr⟩)

theorem Owned.lt_nextReq (h : Owned s outs ins hand gone alone lone) {r : Nat}
    (hr : 0 < cnt Pair.reqs outs r + cnt Pair.reqs ins r + cnt Pair.reqs hand r +
      cnt Pair.reqs gone r + alone.count r + lone.count r) : r < s.nextReq := by
  by_contra hc
  rw [h.reqs, if_neg hc] at hr
  exact Nat.lt_irrefl 0 hr

theorem Owned.count_live {q : Pair} {r : Nat} (hq : q ∈ outs ∨ q ∈ ins ∨ q ∈ hand)
    (hr : r ∈ q.reqs) :
    0 < cnt Pair.reqs outs r + cnt Pair.reqs ins r + cnt Pair.reqs hand r := by
  rcases hq with hq | hq | hq <;> have := cnt_pos hq hr <;> omega

theorem Owned.freed_lt (h : Owned s outs ins hand gone alone lone) {e : Ep × Nat}
    (he : e ∈ s.reqFrees) : e.2 < s.nextReq := by
  refine h.lt_nextReq ?_
  have hpos : 0 < (s.reqFrees.map Prod.snd).count e.2 :=
    List.count_pos_iff.mpr (List.mem_map_of_mem he)
  rw [h.reqFrees] at hpos
  omega

theorem Linked.congr {reqs reqs' : Nat → Request} (h : Linked reqs p)
    (heq : ∀ r ∈ p.reqs, reqs' r = reqs r) : Linked reqs' p := by
  have hin := heq p.inReq List.mem_cons_self
  have hout := heq p.outReq (List.mem_cons_of_mem _ List.mem_cons_self)
  exact ⟨by rw [hin, h.inContext], by rw [hout, h.outContext], by rw [hin, h.inBuf],
    by rw [hout, h.outBuf], by rw [hin, h.inEp], by rw [hout, h.outEp]⟩

theorem count_next {x next r : Nat} (h : x = if r < next then 1 else 0) :
    x + [next].count r = if r < next + 1 then 1 else 0 := by
  rw [List.count_singleton]
  by_cases hnew : r = next
  · subst hnew
    rw [if_neg (Nat.lt_irrefl _)] at h
    rw [h, if_pos (Nat.lt_succ_self _), beq_self_eq_true, if_pos rfl]
  · rw [if_neg (by simpa using fun hc => hnew hc.symm), h]
    split <;> split <;> omega

theorem Owned.allocIn (h : Owned s outs ins hand gone [] lone) (i : Nat) :
    Owned (s.allocIn i) outs ins hand gone [s.nextReq] lone where
  outQueue := h.outQueue
  inQueue := h.inQueue
  disabled := h.disabled
  linked := by
    intro q hq
    refine (h.linked q hq).congr fun r hr => update_of_ne (Nat.ne_of_lt ?_) _ _
    exact h.lt_nextReq (by have := Owned.count_live hq hr; omega)
  aloneEp := by
    intro r hr
    obtain rfl := List.mem_singleton.mp hr
    show (update s.reqs s.nextReq _ s.nextReq).ep = .inEp
    rw [update_self]
  reqs := by
    intro r
    have hr := count_next (h.reqs r)
    rw [List.count_nil] at hr
    exact Eq.trans (by omega) hr
  bufs := h.bufs
  reqFrees := h.reqFrees
  bufFrees := h.bufFrees
  ownEp := by
    intro e he
    show (update s.reqs s.nextReq _ e.2).ep = e.1
    rw [update_of_ne (Nat.ne_of_lt (h.freed_lt he))]
    exact h.ownEp e he

/-- A new request on the OUT endpoint is owned once. -/
theorem Owned.allocOut (L : Loop) (i : Nat) {r : Nat} (h : Owned s outs ins [] gone [r] lone) :
    Owned (s.allocOut L i r) outs ins [⟨r, s.nextReq, s.nextBuf⟩] gone [] lone := by
  have hcount : [r].count r = 1 := by rw [List.count_singleton, beq_self_eq_true, if_pos rfl]
  have hr : r < s.nextReq := h.lt_nextReq (by omega)
  have hin : (s.allocOut L i r).reqs r =
      { s.reqs r with context := s.nextReq, buf := s.nextBuf } := by
    show update (update s.reqs r _) s.nextReq _ r = _
    rw [update_of_ne (Nat.ne_of_lt hr), update_self]
  have hout : (s.allocOut L i r).reqs s.nextReq =
      { ep := .outEp, context := r, buf := s.nextBuf, length := L.align L.buflen, zero := false } :=
    update_self s.nextReq _ _
  have hother : ∀ q, q < s.nextReq → q ≠ r → (s.allocOut L i r).reqs q = s.reqs q := by
    intro q hq hne
    show update (update s.reqs r _) s.nextReq _ q = _
    rw [update_of_ne (Nat.ne_of_lt hq), update_of_ne hne]
  have hep : ∀ q, q < s.nextReq → ((s.allocOut L i r).reqs q).ep = (s.reqs q).ep := by
    intro q hq
    by_cases hne : q = r
    · rw [hne, hin]
    · rw [hother q hq hne]
  exact {
    outQueue := h.outQueue
    inQueue := h.inQueue
    disabled := h.disabled
    linked := by
      intro q hq
      rcases hq with hq | hq | hq
      pick_goal 3
      · obtain rfl := List.mem_singleton.mp hq
        exact ⟨by rw [hin], by rw [hout], by rw [hin], by rw [hout],
          by rw [hin]; exact h.aloneEp r List.mem_cons_self, by rw [hout]⟩
      all_goals
        have hlive : q ∈ outs ∨ q ∈ ins ∨ q ∈ ([] : List Pair) := by simp [hq]
        refine (h.linked q hlive).congr fun x hx => hother x (h.lt_nextReq ?_) ?_
        · have := Owned.count_live hlive hx
          omega
        · rintro rfl
          have := Owned.count_live hlive hx
          have hone := h.reqs x
          rw [if_pos hr] at hone
          omega
    aloneEp := nofun
    reqs := by
      intro q
      have hq := count_next (h.reqs q)
      have hnew : cnt Pair.reqs [⟨r, s.nextReq, s.nextBuf⟩] q =
          [r].count q + [s.nextReq].count q := by
        rw [cnt_cons, cnt_nil, count_reqs, Nat.add_zero]
      rw [cnt_nil] at hq
      rw [hnew, List.count_nil]
      exact Eq.trans (by omega) hq
    bufs := by
      intro b
      have hb := count_next (h.bufs b)
      have hnew : cnt Pair.bufs [⟨r, s.nextReq, s.nextBuf⟩] b = [s.nextBuf].count b := by
        rw [cnt_cons, cnt_nil, Nat.add_zero, Pair.bufs]
      rw [cnt_nil] at hb
      rw [hnew]
      exact Eq.trans (by omega) hb
    reqFrees := h.reqFrees
    bufFrees := h.bufFrees
    ownEp := fun e he => (hep e.2 (h.freed_lt he)).trans (h.ownEp e he) }

end

end RealtekIpcam.Gadget.Loopback
