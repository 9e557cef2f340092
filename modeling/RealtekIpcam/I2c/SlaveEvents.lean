import RealtekIpcam.Lib.Runs
import RealtekIpcam.I2c.SlaveTrack

/-!
# The events of the slave

The backend is to get the events of the transactions in the order of the bus.
Two things can go wrong.  The direction is remembered in `status` and nothing
but a change of direction resets it, so that a write after a write is not
announced, and a read after a read goes on where the other was.  And one call of
the handler takes bytes, then a read request, then a stop, in this order, which
need not be that of the bus.

`Alternating` and `CallOk` exclude these, and then the events are right: at each
point the events that were delivered and those of what is still pending and to
come make up those of the transactions.
-/

namespace RealtekIpcam.I2c

/-! ## The handler -/

namespace Slave

variable {β : Type} {cb : β → I2cSlaveEvent → Byte → β × Byte} {s : Slave β}
  {E evs : List I2cSlaveEvent} {w r owed : Bool} {v : List Item}

theorem any_eraseP (v : List Item) :
    (v.eraseP Item.isStop).any Item.isByte = v.any Item.isByte := by
  induction v with
  | nil => rfl
  | cons x v ih =>
    cases x with
    | stop => rfl
    | _ => exact congrArg (_ || ·) ih

/-- No byte is left among the items that were `v`, of which none but bytes are
gone, and to which the bus, unless it was held, has added. -/
def Emptied (v : List Item) (held : Bool) (v' : List Item) : Prop :=
  v'.any Item.isByte = false ∧
    ∃ gone new, v ++ new = gone ++ v' ∧ gone.all Item.isByte = true ∧ (held = true → new = [])

/-- Every byte of the RX FIFO is reported. -/
theorem drainRx_track (n : Nat) (val : Byte) {s : Slave β} {first : Bool} {x : Byte}
    {rest : List Item} (h : Track E evs w r (.byte first x :: rest) owed s.hw)
    (hevs : s.events ++ [.writeReceived x] = evs ++ Item.events (.byte first x))
    (hw : s.statusWrite = true) (hr : s.statusRead = false)
    (hn : (s.hw.pending ++ s.hw.todo).countP Item.isByte ≤ n) :
    ∃ v', Track E (s.drainRx cb n val).2.events true false v' owed (s.drainRx cb n val).2.hw ∧
      Emptied (.byte first x :: rest) s.hw.held v' ∧
      (s.drainRx cb n val).2.statusWrite = true ∧ (s.drainRx cb n val).2.statusRead = false := by
  induction n generalizing val s first x rest evs w r with
  | zero =>
    have hpos : 0 < (s.hw.pending ++ s.hw.todo).countP Item.isByte := by
      rw [h.readDataCmd.2.2.2.1]
      simp [Item.isByte]
    omega
  | succ n ih =>
    obtain ⟨new, h₁, hnew, hcount⟩ := h.iterate (s.sched.headD 0)
    obtain ⟨hval, htodo, hheld, hpending, h₂⟩ := h₁.readDataCmd
    -- The state when the byte was told.
    obtain ⟨u, hu, huhw, hu_events, hu_write, hu_read⟩ : ∃ u : Slave β,
        s.drainRx cb (n + 1) val =
          (if u.tick.hw.pending.any Item.isByte then
            u.tick.drainRx cb n (cb s.backend (.writeReceived x) x).2
          else ((cb s.backend (.writeReceived x) x).2, u.tick)) ∧
        u.hw = (s.tick.hw.readDataCmd).2 ∧ u.events = s.events ++ [.writeReceived x] ∧
        u.statusWrite = true ∧ u.statusRead = false := by
      refine ⟨(({ s.tick with hw := s.tick.hw.readDataCmd.2 } : Slave β).slaveEvent cb
        (.writeReceived x) x).2, ?_, rfl, rfl, hw, hr⟩
      rw [drainRx, show s.tick.hw.readDataCmd.1 = x from hval]
      rfl
    rw [hu]
    rw [hevs] at hu_events
    rw [← hu_events, show (SlaveHw.step^[s.sched.headD 0] s.hw).readDataCmd.2 = u.hw from huhw.symm]
      at h₂
    obtain ⟨new', h₃, hnew', hcount'⟩ := h₂.iterate (u.sched.headD 0)
    have hfixed : s.hw.held = true → u.tick.hw.held = true ∧ new = [] ∧ new' = [] := by
      intro hs
      have huheld : u.hw.held = true := by
        rw [huhw]
        refine hheld.trans ?_
        rw [SlaveHw.iterate_step_held hs]
        exact hs
      refine ⟨?_, hnew hs, hnew' huheld⟩
      rw [show u.tick.hw = u.hw from SlaveHw.iterate_step_held huheld _]
      exact huheld
    have hany : u.tick.hw.pending.any Item.isByte = (rest ++ new ++ new').any Item.isByte := by
      rw [show u.tick.hw.pending = _ from h₃.pending]
      cases owed
      · rfl
      · exact any_eraseP _
    split
    next hmore =>
      obtain ⟨y, rest', hrest'⟩ := h₃.byte_first (hany ▸ hmore)
      have hless : (u.tick.hw.pending ++ u.tick.hw.todo).countP Item.isByte ≤ n := by
        rw [show (u.tick.hw.pending ++ u.tick.hw.todo).countP Item.isByte = _ from hcount', huhw]
        rw [hpending, htodo.symm] at hcount
        rw [List.cons_append, List.countP_cons_of_pos rfl] at hcount
        show (s.tick.hw.readDataCmd.2.pending ++
          s.tick.hw.readDataCmd.2.todo).countP Item.isByte ≤ n
        have hcount'' : (s.tick.hw.readDataCmd.2.pending ++
          s.tick.hw.readDataCmd.2.todo).countP Item.isByte + 1 =
            (s.hw.pending ++ s.hw.todo).countP Item.isByte := hcount
        omega
      obtain ⟨v', htrack, ⟨hempty, gone, new'', hsplit, hgone, hnew''⟩, hw', hr'⟩ :=
        ih (cb s.backend (.writeReceived x) x).2 (s := u.tick) (hrest' ▸ h₃) rfl hu_write
          hu_read hless
      refine ⟨v', htrack, ⟨hempty, .byte first x :: gone, new ++ new' ++ new'', ?_, ?_, ?_⟩,
        hw', hr'⟩
      · rw [← hrest'] at hsplit
        simpa [List.append_assoc] using hsplit
      · simpa [Item.isByte] using hgone
      · intro hs
        obtain ⟨hheld', h1, h2⟩ := hfixed hs
        rw [h1, h2, hnew'' hheld']
        rfl
    next hdone =>
      refine ⟨rest ++ new ++ new', h₃, ⟨?_, [.byte first x], new ++ new', ?_, rfl, ?_⟩, hu_write,
        hu_read⟩
      · rw [← hany]
        simpa using hdone
      · simp
      · intro hs
        obtain ⟨-, h1, h2⟩ := hfixed hs
        rw [h1, h2]
        rfl

/-- Both status bits are not set at once. -/
def DirOk (s : Slave β) : Prop := s.statusWrite = true → s.statusRead = false

theorem handleRxFull_track (cb : β → I2cSlaveEvent → Byte → β × Byte)
    {first : Bool} {x : Byte} {rest : List Item}
    (h : Track E s.events s.statusWrite s.statusRead (.byte first x :: rest) owed s.hw)
    (hdir : s.DirOk) :
    ∃ v', Track E (s.handleRxFull cb 0).2.events true false v' owed (s.handleRxFull cb 0).2.hw ∧
      Emptied (.byte first x :: rest) s.hw.held v' ∧
      (s.handleRxFull cb 0).2.statusWrite = true ∧ (s.handleRxFull cb 0).2.statusRead = false := by
  have hcount : (s.hw.pending ++ s.hw.todo).countP Item.isByte ≤
      s.hw.pending.length + s.hw.todo.length := by
    rw [← List.length_append]
    exact List.countP_le_length
  obtain ⟨n, hn⟩ := h.alternates
  have hfirst : first = !s.statusWrite := hn.1
  cases hw : s.statusWrite
  · rw [hw] at hfirst
    have hevs : (s.events ++ [.writeRequested]) ++ [.writeReceived x] =
        s.events ++ Item.events (.byte first x) := by
      rw [hfirst, List.append_assoc]
      rfl
    have heq : s.handleRxFull cb 0 =
        (({ s with statusWrite := true, statusRead := false } : Slave β).slaveEvent cb
          .writeRequested 0).2.drainRx cb (s.hw.pending.length + s.hw.todo.length)
          (cb s.backend .writeRequested 0).2 := by
      rw [handleRxFull, hw]
      rfl
    rw [heq]
    exact drainRx_track _ _ (s := (({ s with statusWrite := true, statusRead := false } :
      Slave β).slaveEvent cb .writeRequested 0).2) h hevs rfl rfl hcount
  · rw [hw] at hfirst
    have hevs : s.events ++ [.writeReceived x] = s.events ++ Item.events (.byte first x) := by
      rw [hfirst]
      rfl
    have heq : s.handleRxFull cb 0 =
        s.drainRx cb (s.hw.pending.length + s.hw.todo.length) 0 := by
      rw [handleRxFull, hw]
      rfl
    rw [heq]
    exact drainRx_track _ _ h hevs hw (hdir hw) hcount

/-- What holds between two calls of the handler. -/
def EventsInv (E : List I2cSlaveEvent) (s : Slave β) : Prop :=
  Track E s.events s.statusWrite s.statusRead s.hw.pending false s.hw ∧ s.DirOk

/-- A read request is answered with the byte that the callback gives. -/
theorem handleRdReq_inv {first : Bool} {val : Byte}
    (h : Track E s.events s.statusWrite s.statusRead [.request first] false s.hw)
    (hdir : s.DirOk) : (s.handleRdReq cb val).2.EventsInv E := by
  have hheld : s.hw.held = true := h.held ⟨_, List.mem_cons_self, rfl⟩
  have htick : s.tick.hw = s.hw := SlaveHw.iterate_step_held hheld _
  have hclear : s.tick.hw.clrRdReq.todo = s.hw.todo ∧ s.tick.hw.clrRdReq.pending = [] := by
    rw [htick]
    refine ⟨rfl, ?_⟩
    show s.hw.pending.filter _ = []
    rw [h.pending]
    rfl
  obtain ⟨hfirst, htrack⟩ := h.clrRdReq hclear.1 hclear.2
  -- The state before the answer is written: the request is told, and the bus is held.
  obtain ⟨u, hu, huhw, hu_events, hu_write, hu_read⟩ : ∃ u : Slave β × Byte,
      (s.handleRdReq cb val).2 = { u.1.tick with hw := u.1.tick.hw.writeDataCmd u.2 } ∧
        u.1.hw = s.tick.hw.clrRdReq ∧
        u.1.events = s.events ++ Item.events (.request first) ∧
        u.1.statusWrite = false ∧ u.1.statusRead = true := by
    cases hr : s.statusRead
    · rw [hr] at hfirst
      refine ⟨⟨{ (({ s.tick with hw := s.tick.hw.clrRdReq } : Slave β).slaveEvent cb
        .readRequested val).2 with statusRead := true, statusWrite := false },
        (cb s.backend .readRequested val).2⟩, ?_, rfl, ?_, rfl, rfl⟩
      · rw [handleRdReq]
        simp only [hr, tick]
        rfl
      · rw [hfirst]
        rfl
    · rw [hr] at hfirst
      have hw : s.statusWrite = false := by
        cases hw : s.statusWrite
        · rfl
        · rw [hdir hw] at hr
          cases hr
      refine ⟨⟨(({ s.tick with hw := s.tick.hw.clrRdReq } : Slave β).slaveEvent cb
        .readProcessed val).2, (cb s.backend .readProcessed val).2⟩, ?_, rfl, ?_, hw, hr⟩
      · rw [handleRdReq]
        simp only [hr, tick]
        rfl
      · rw [hfirst]
        rfl
  have hu_tick : u.1.tick.hw = s.tick.hw.clrRdReq := by
    refine (SlaveHw.iterate_step_held ?_ _).trans huhw
    rw [huhw, htick]
    exact hheld
  have hsent : Track E (s.events ++ Item.events (.request first)) false true [] false
      (u.1.tick.hw.writeDataCmd u.2) := by
    rw [hu_tick]
    exact ⟨htrack.events, htrack.alternates, htrack.last, fun ⟨x, hx, _⟩ => (by cases hx),
      htrack.noStart, htrack.pending, htrack.owed⟩
  rw [hu]
  refine ⟨?_, fun hw => ?_⟩
  · show Track E u.1.events u.1.statusWrite u.1.statusRead (u.1.tick.hw.writeDataCmd u.2).pending
      false (u.1.tick.hw.writeDataCmd u.2)
    rw [hu_events, hu_write, hu_read,
      show (u.1.tick.hw.writeDataCmd u.2).pending = [] from hsent.pending]
    exact hsent
  · have : u.1.statusWrite = true := hw
    rw [hu_write] at this
    cases this

theorem Emptied.any_eq {v v' : List Item} {held : Bool} (h : Emptied v held v')
    (hheld : held = true) {p : Item → Bool} (hp : ∀ x, p x = true → x.isByte = false) :
    v'.any p = v.any p := by
  obtain ⟨-, gone, new, hsplit, hgone, hnew⟩ := h
  rw [hnew hheld, List.append_nil] at hsplit
  have hnone : gone.any p = false := by
    rw [List.any_eq_false]
    intro x hx hpx
    rw [List.all_eq_true] at hgone
    have := hgone x hx
    rw [hp x hpx] at this
    cases this
  rw [hsplit, List.any_append, hnone, Bool.false_or]

theorem handleStat_noStop (h : s.EventsInv E) (activity : Bool)
    (hstop : s.intrStat.stopDet = false) : (s.handleStat cb s.intrStat activity).EventsInv E := by
  obtain ⟨htrack, hdir⟩ := h
  -- After the bytes there is at most the request, which is told next.
  have hrest : ∀ (u : Slave β) (val : Byte) (v' : List Item),
      Track E u.events u.statusWrite u.statusRead v' false u.hw → u.DirOk →
        v'.any Item.isByte = false →
        (s.intrStat.rdReq = true → v'.any Item.isStop = false ∧ v'.any Item.isRequest = true) →
          (if s.intrStat.rdReq && activity then u.handleRdReq cb val
            else (val, u)).2.EventsInv E := by
    intro u val v' hu hudir hbyte hreq
    split
    next hgo =>
      rw [Bool.and_eq_true] at hgo
      obtain ⟨hs, hr⟩ := hreq hgo.1
      obtain ⟨first, rfl⟩ := hu.request_only hs hbyte hr
      exact handleRdReq_inv hu hudir
    next =>
      refine ⟨?_, hudir⟩
      rw [show u.hw.pending = v' from hu.pending]
      exact hu
  cases hrx : s.intrStat.rxFull
  · have heq : s.handleStat cb s.intrStat activity =
        (if s.intrStat.rdReq && activity then s.handleRdReq cb 0 else (0, s)).2 := by
      rw [handleStat, hrx, hstop]
      rfl
    rw [heq]
    exact hrest s 0 s.hw.pending htrack hdir hrx fun hreq => ⟨hstop, hreq⟩
  · have heq : s.handleStat cb s.intrStat activity =
        (if s.intrStat.rdReq && activity then
          (s.handleRxFull cb 0).2.handleRdReq cb (s.handleRxFull cb 0).1
        else ((s.handleRxFull cb 0).1, (s.handleRxFull cb 0).2)).2 := by
      rw [handleStat, hrx, hstop]
      rfl
    rw [heq]
    obtain ⟨first, x, rest, hv⟩ := htrack.bytes_first hstop hrx
    obtain ⟨v', hdrained, hempty, hw, hr⟩ := handleRxFull_track cb (hv ▸ htrack) hdir
    refine hrest _ _ v' (by rw [hw, hr]; exact hdrained) (fun _ => hr) hempty.1 fun hreq => ?_
    have hheld : s.hw.held = true := by
      obtain ⟨y, hy, hyreq⟩ := List.any_eq_true.mp hreq
      exact htrack.held ⟨y, hy, hyreq⟩
    rw [← hv] at hempty
    rw [hempty.any_eq hheld (fun y hy => by cases y <;> first | rfl | cases hy),
      hempty.any_eq hheld (fun y hy => by cases y <;> first | rfl | cases hy)]
    exact ⟨hstop, hreq⟩

theorem handleStat_stop {stat : SlaveStat} {activity : Bool}
    (h : Track E s.events s.statusWrite s.statusRead v true s.hw) (hdir : s.DirOk)
    (hrd : (stat.rdReq && activity) = false) (hstop : stat.stopDet = true)
    (hrx : stat.rxFull = true → ∃ first x rest, v = .byte first x :: rest)
    (hnorx : stat.rxFull = false → ∃ rest, v = .stop :: rest) :
    (s.handleStat cb stat activity).EventsInv E := by
  have hpay : ∀ (u : Slave β) (val : Byte) (rest : List Item),
      Track E u.events u.statusWrite u.statusRead (.stop :: rest) true u.hw → u.DirOk →
        (u.slaveEvent cb .stop val).2.EventsInv E := by
    intro u val rest hu hudir
    refine ⟨?_, hudir⟩
    have hpaid := hu.payStop
    show Track E (u.events ++ [.stop]) u.statusWrite u.statusRead u.hw.pending false u.hw
    rw [show u.hw.pending = rest from hpaid.pending]
    exact hpaid
  cases hfull : stat.rxFull
  · have heq : s.handleStat cb stat activity = (s.slaveEvent cb .stop 0).2 := by
      rw [handleStat, hfull, hrd, hstop]
      rfl
    rw [heq]
    obtain ⟨rest, rfl⟩ := hnorx hfull
    exact hpay s 0 rest h hdir
  · have heq : s.handleStat cb stat activity =
        ((s.handleRxFull cb 0).2.slaveEvent cb .stop (s.handleRxFull cb 0).1).2 := by
      rw [handleStat, hfull, hrd, hstop]
      rfl
    rw [heq]
    obtain ⟨first, x, rest, rfl⟩ := hrx hfull
    obtain ⟨v', hdrained, hempty, hw, hr⟩ := handleRxFull_track cb h hdir
    obtain ⟨rest', rfl⟩ := hdrained.stop_first hempty.1
    exact hpay _ _ rest' (by rw [hw, hr]; exact hdrained) fun _ => hr

theorem EventsInv.tick (h : s.EventsInv E) : s.tick.EventsInv E := by
  obtain ⟨new, htrack, -⟩ := h.1.iterate (s.sched.headD 0)
  refine ⟨?_, h.2⟩
  have hpending : s.tick.hw.pending = s.hw.pending ++ new := htrack.pending
  rw [hpending]
  exact htrack

end Slave

open Runs Slave

/-- The call finds the conditions in the order in which it handles them.  If there
is a stop, it comes after all bytes, it is the only one until it is cleared, and a
read request that came after it is left for the next call. -/
def CallOk {β : Type} (s : Slave β) : SlaveRunEvent → Prop
  | .irq other sched =>
    let s := { s with sched := sched }
    let ready := s.tick.tick.tick
    s.proceeds other = true → ready.tick.intrStat.stopDet = true →
      (ready.tick.hw.pending.dropWhile Item.isByte = [.stop] ∨
        (ready.hw.activity = false ∧
          ∃ first, ready.tick.hw.pending.dropWhile Item.isByte = [.stop, .request first])) ∧
      ready.tick.tick.hw.pending.countP Item.isStop = 1
  | .bus => True

instance decidableCallOk {β : Type} (s : Slave β) : DecidablePred (CallOk s)
  | .irq _ _ => inferInstanceAs (Decidable (_ → _ → _))
  | .bus => isTrue trivial

namespace Slave

variable {β : Type} {cb : β → I2cSlaveEvent → Byte → β × Byte} {s : Slave β}
  {E : List I2cSlaveEvent}

theorem any_request_of_dropWhile {v : List Item} (h : v.dropWhile Item.isByte = [.stop]) :
    v.any Item.isRequest = false := by
  rw [← List.takeWhile_append_dropWhile (p := Item.isByte) (l := v), h, List.any_append,
    List.any_eq_false.mpr fun x hx hreq => ?_]
  · rfl
  · have hbyte := List.mem_takeWhile_imp hx
    cases x with
    | request first => cases hbyte
    | _ => cases hreq

theorem byte_of_dropWhile {v : List Item} (h : (v.dropWhile Item.isByte).any Item.isByte = false)
    (hbyte : v.any Item.isByte = true) : ∃ first x rest, v = .byte first x :: rest := by
  cases v with
  | nil => cases hbyte
  | cons y v =>
    cases y with
    | byte first x => exact ⟨first, x, v, rfl⟩
    | _ =>
      rw [List.dropWhile_cons_of_neg (by simp [Item.isByte]), hbyte] at h
      cases h

theorem dropWhile_of_any {v : List Item} (hbyte : v.any Item.isByte = false) :
    v.dropWhile Item.isByte = v := by
  cases v with
  | nil => rfl
  | cons y v =>
    refine List.dropWhile_cons_of_neg ?_
    rw [List.any_cons, Bool.or_eq_false_iff] at hbyte
    rw [hbyte.1]
    simp

/-- The interrupt handler keeps the invariant. -/
theorem i2cDwIrqHandlerSlave_inv {sched : List Nat} {other : Bool} (h : s.EventsInv E)
    (hok : CallOk s (.irq other sched)) :
    (({ s with sched := sched } : Slave β).i2cDwIrqHandlerSlave cb other).EventsInv E := by
  have hready : (({ s with sched := sched } : Slave β).tick.tick.tick).EventsInv E :=
    (show ({ s with sched := sched } : Slave β).EventsInv E from h).tick.tick.tick
  rw [i2cDwIrqHandlerSlave]
  split
  next hgo =>
    rw [CallOk] at hok
    have hok := hok hgo
    clear hgo
    generalize ({ s with sched := sched } : Slave β).tick.tick.tick = ready at hready hok ⊢
    have hstat := hready.tick
    cases hstop : ready.tick.intrStat.stopDet
    · have heq : ready.readClearIntrbitsSlave = (ready.tick.intrStat, ready.tick) := by
        simp only [readClearIntrbitsSlave]
        rw [hstop]
        rfl
      rw [heq]
      exact handleStat_noStop hstat _ hstop
    · obtain ⟨hshape, hone⟩ := hok hstop
      have heq : ready.readClearIntrbitsSlave = (ready.tick.intrStat,
          { ready.tick.tick with hw := ready.tick.tick.hw.clrStopDet }) := by
        simp only [readClearIntrbitsSlave]
        rw [hstop]
        rfl
      rw [heq]
      obtain ⟨new, htrack, -⟩ := hstat.1.iterate (ready.tick.sched.headD 0)
      have hpending : ready.tick.tick.hw.pending = ready.tick.hw.pending ++ new := htrack.pending
      refine handleStat_stop (v := ready.tick.hw.pending ++ new) (htrack.clrStopDet hone) hstat.2 ?_
        hstop (fun hrx => ?_) fun hrx => ?_
      · -- A request that is pending came after the stop, and is left alone.
        rcases hshape with hshape | ⟨hactivity, -⟩
        · rw [show ready.tick.intrStat.rdReq = false from any_request_of_dropWhile hshape,
            Bool.false_and]
        · rw [hactivity, Bool.and_false]
      · have hnone : (ready.tick.hw.pending.dropWhile Item.isByte).any Item.isByte = false := by
          rcases hshape with hshape | ⟨-, first, hshape⟩ <;> rw [hshape] <;> rfl
        obtain ⟨first, x, rest, hv⟩ := byte_of_dropWhile hnone hrx
        exact ⟨first, x, rest ++ new, by rw [hv, List.cons_append]⟩
      · have hall : ready.tick.hw.pending.dropWhile Item.isByte = ready.tick.hw.pending :=
          dropWhile_of_any hrx
        rw [hall] at hshape
        rcases hshape with hshape | ⟨-, first, hshape⟩
        · exact ⟨new, by rw [hshape, List.singleton_append]⟩
        · exact ⟨.request first :: new, by rw [hshape]; rfl⟩
  next => exact hready

/-- **One step** of the slave keeps the invariant. -/
theorem slaveStep_inv {t : Slave β} {e : SlaveRunEvent} (h : s.EventsInv E) (hok : CallOk s e)
    (hstep : slaveStep cb s e = some t) : t.EventsInv E := by
  cases e with
  | irq other sched =>
    rw [slaveStep, Option.some_inj] at hstep
    exact hstep ▸ i2cDwIrqHandlerSlave_inv h hok
  | bus =>
    rw [slaveStep, Option.some_inj] at hstep
    subst hstep
    obtain ⟨new, htrack, -⟩ := h.1.step
    refine ⟨?_, h.2⟩
    show Track E s.events s.statusWrite s.statusRead s.hw.step.pending false s.hw.step
    rw [show s.hw.step.pending = s.hw.pending ++ new from htrack.pending]
    exact htrack

theorem i2cDwRegSlave_inv {ts : List Transaction} (halt : Alternating ts) (rxDepth : Nat)
    (backend : β) :
    (i2cDwRegSlave rxDepth (ts.flatMap Transaction.items) backend).EventsInv
      (ts.flatMap Transaction.events) := by
  have hevents : (ts.flatMap Transaction.items).flatMap Item.events =
      ts.flatMap Transaction.events := by
    rw [List.flatMap_assoc]
    exact List.flatMap_congr fun t ht => Transaction.items_events (halt.1 t ht)
  exact ⟨⟨hevents, ⟨false, alternates_items halt false (fun _ _ _ => rfl) fun _ _ _ => rfl⟩,
    fun x hx => (by cases hx), fun ⟨x, hx, _⟩ => (by cases hx), List.not_mem_nil, rfl,
    fun ho => (by cases ho)⟩, fun hw => (by cases hw)⟩

end Slave

/-- **The events of the transactions, in the order of the bus.**  Where reads and
writes take turns and every call finds its conditions in order, what was told is a
prefix of the events of the transactions, and it is all of them when nothing is
pending and nothing is to come. -/
theorem events_transactions {β : Type} (cb : β → I2cSlaveEvent → Byte → β × Byte) (rxDepth : Nat)
    (backend : β) {ts : List Transaction} (halt : Alternating ts) {es : List SlaveRunEvent}
    {s : Slave β}
    (hok : Along (slaveStep cb) CallOk
      (i2cDwRegSlave rxDepth (ts.flatMap Transaction.items) backend) es)
    (hrun : exec (slaveStep cb)
      (i2cDwRegSlave rxDepth (ts.flatMap Transaction.items) backend) es = some s) :
    s.events <+: ts.flatMap Transaction.events ∧
      (s.hw.pending = [] → s.hw.todo = [] → s.events = ts.flatMap Transaction.events) := by
  have h : s.EventsInv (ts.flatMap Transaction.events) :=
    exec_invariant (P := EventsInv (ts.flatMap Transaction.events))
      (fun _ _ _ h hok hstep => slaveStep_inv h hok hstep) (i2cDwRegSlave_inv halt rxDepth backend)
      hok hrun
  have hevents := h.1.events
  refine ⟨⟨_, hevents⟩, fun hpending htodo => ?_⟩
  rw [hpending, htodo] at hevents
  simpa using hevents

/-- A backend that answers every request with the last byte that was written. -/
def echo (last : Byte) : I2cSlaveEvent → Byte → Byte × Byte
  | .writeReceived val, _ => (val, val)
  | .readRequested, _ => (last, last)
  | .readProcessed, _ => (last, last)
  | _, val => (last, val)

/-- A register of a slave is written, and read back by a repeated START. -/
def writeRead : List Transaction := [.write [1, 7] false, .read 1 true]

/-- The handler is late, and finds both bytes and the first request. -/
def writeReadRun : List SlaveRunEvent :=
  List.replicate 5 .bus ++ [.irq true [], .bus, .irq true [], .bus, .irq true []]

theorem events_writeRead : ∃ s,
    exec (slaveStep echo) (i2cDwRegSlave 4 (writeRead.flatMap Transaction.items) 0)
        writeReadRun = some s ∧
      s.hw.sent = [7, 7] ∧ s.events = writeRead.flatMap Transaction.events := by
  have hobs : (exec (slaveStep echo) (i2cDwRegSlave 4 (writeRead.flatMap Transaction.items) 0)
      writeReadRun).map (fun s => (s.hw.sent, s.hw.pending, s.hw.todo)) =
        some ([7, 7], [], []) := by decide +kernel
  obtain ⟨s, hrun, hobs⟩ := Option.map_eq_some_iff.mp hobs
  simp only [Prod.mk.injEq] at hobs
  exact ⟨s, hrun, hobs.1, (events_transactions echo 4 0
    (show Alternating writeRead by decide) (by decide +kernel) hrun).2 hobs.2.1 hobs.2.2⟩

/-- **The second write is not announced**, even if every byte and every stop is
handled at once. -/
theorem events_twoWrites : ∃ s,
    exec (slaveStep echo)
        (i2cDwRegSlave 4 ([.write [1] true, .write [2] true].flatMap Transaction.items) 0)
        ((List.replicate 6 [.bus, .irq true []]).flatten) = some s ∧
      s.hw.pending = [] ∧ s.hw.todo = [] ∧
      s.events = [.writeRequested, .writeReceived 1, .stop, .writeReceived 2, .stop] ∧
      [Transaction.write [1] true, .write [2] true].flatMap Transaction.events =
        [.writeRequested, .writeReceived 1, .stop, .writeRequested, .writeReceived 2, .stop] ∧
      ¬ s.events <+: [Transaction.write [1] true, .write [2] true].flatMap Transaction.events := by
  have hobs : (exec (slaveStep echo)
      (i2cDwRegSlave 4 ([.write [1] true, .write [2] true].flatMap Transaction.items) 0)
      ((List.replicate 6 [.bus, .irq true []]).flatten)).map
        (fun s => (s.hw.pending, s.hw.todo, s.events)) =
          some ([], [], [.writeRequested, .writeReceived 1, .stop, .writeReceived 2, .stop]) := by
    decide +kernel
  obtain ⟨s, hrun, hobs⟩ := Option.map_eq_some_iff.mp hobs
  simp only [Prod.mk.injEq] at hobs
  refine ⟨s, hrun, hobs.1, hobs.2.1, hobs.2.2, by decide, ?_⟩
  rw [hobs.2.2]
  decide

end RealtekIpcam.I2c
