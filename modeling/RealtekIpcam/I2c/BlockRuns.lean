import RealtekIpcam.I2c.BlockReceive

/-!
# Runs in which lengths come from the bus

What the handler does is what was foreseen, as long as the bytes that it takes are those that
give the lengths.  So the foreseen transfer keeps its invariant over a whole run, whose bytes
give the lengths that were foreseen.
-/

namespace RealtekIpcam.I2c

variable {msgs ms : List I2cMsg} {bytes : List Byte} {f : Word → Word} {s : Prop}

namespace Transfer

variable {t u : Transfer}

/-! ## The handler foreseen -/

/-- What the driver knows of the messages, and what the writing and the reading left. -/
structure Kept (msgs ms : List I2cMsg) (t : Transfer) : Prop where
  lengths : Lengths msgs ms t.dev
  watch : t.Watch ms.length

theorem Ahead.kept (h : t.Ahead f msgs ms s) : t.Kept msgs ms := ⟨h.lengths, h.watch⟩

theorem Kept.of_dev (h : t.Kept msgs ms) (hdev : u.dev = t.dev)
    (hmask : u.hw.intrMask = t.hw.intrMask) : u.Kept msgs ms := by
  obtain ⟨hlengths, hwatch⟩ := h
  refine ⟨hdev ▸ hlengths, ?_, ?_, ?_⟩
  · rw [hdev]
    exact hwatch.failed
  · rw [hdev, hmask]
    exact hwatch.mask
  · rw [hdev]
    exact hwatch.reading

theorem Watch.of_reads {n : Nat} (h : t.Watch n) (hr : Reads (t.foreseen ms) (u.foreseen ms))
    (hleft : u.dev.statusRead = true → 0 < u.dev.rxBufLen) : u.Watch n := by
  have hplace := hr.writePlace
  simp only [writePlace, WritePlace.mk.injEq] at hplace
  have hidx : u.dev.msgWriteIdx = t.dev.msgWriteIdx := hplace.1
  have hbusy : u.dev.statusWrite = t.dev.statusWrite := hplace.2.1
  have herr : u.dev.msgErr = t.dev.msgErr := hr.msgErr
  have hcmd : u.dev.cmdErr = t.dev.cmdErr := hr.cmdErr
  have hmask : u.hw.intrMask = t.hw.intrMask := hr.intrMask
  refine ⟨?_, ?_, hleft⟩
  · rw [herr, hbusy, hidx]
    exact h.failed
  · rw [hcmd, herr, hmask, hidx]
    exact h.mask

theorem Ahead.beforeXferMsg (hp : Plain ms) (hv : View f) (h : t.Ahead f msgs ms s)
    (hfits : Fits msgs ms bytes) (stat : Intr)
    (hbytes : (t.beforeXferMsg stat).hw.taken <+: bytes) :
    (t.beforeXferMsg stat).Ahead f msgs ms s ∧
      Reads (t.foreseen ms) ((t.beforeXferMsg stat).foreseen ms) := by
  simp only [Transfer.beforeXferMsg] at hbytes ⊢
  split
  next hfull =>
    rw [if_pos hfull] at hbytes
    have hreading : t.Reading msgs ms s :=
      ⟨h.running.live, h.running.recv, h.lengths, h.watch.reading⟩
    obtain ⟨hread, hreads⟩ := hreading.readLoop hp hv hfits t.dev.msgs.length h.running.sent hbytes
    exact ⟨⟨h.running.of_reads hreads hread.live hread.recv, hread.lengths,
      h.watch.of_reads hreads hread.left⟩, hreads⟩
  next => exact ⟨h, Reads.refl _⟩

theorem Ahead.afterXferMsg (hp : Plain ms) (hv : View f) (hb : Blind f) (h : t.Ahead f msgs ms s)
    (stat : Intr) (hmask : stat.txEmpty = true → t.hw.intrMask.txEmpty = true) :
    (t.afterXferMsg stat).Ahead f msgs ms s ∧
      Writes (t.foreseen ms) ((t.afterXferMsg stat).foreseen ms) := by
  simp only [Transfer.afterXferMsg]
  split
  next htx =>
    refine h.i2cDwXferMsg hp hv hb ?_
    by_contra herr
    have hnone : t.hw.intrMask = Intr.none := h.running.mask.2.2 herr
    have henabled := hmask htx
    rw [hnone] at henabled
    cases henabled
  next => exact ⟨h, Writes.refl _⟩

theorem readClearIntrbits_dev (habrt : t.readClearIntrbits.1.txAbrt = false) :
    t.readClearIntrbits.2.dev = t.dev ∧ t.readClearIntrbits.2.hw.intrMask = t.hw.intrMask := by
  refine ⟨?_, (readClearIntrbits_reads t).intrMask⟩
  simp only [readClearIntrbits_stat] at habrt
  simp only [readClearIntrbits, readIntrStat, habrt]
  split <;> rfl

theorem foreseen_readClearIntrbits (t : Transfer) (ms : List I2cMsg) :
    (t.foreseen ms).readClearIntrbits.2 = t.readClearIntrbits.2.foreseen ms := by
  have habrt : (if t.readClearIntrbits.1.txAbrt then (t.tick.foreseen ms).clrTxAbrt
      else t.tick.foreseen ms) =
        (if t.readClearIntrbits.1.txAbrt then t.tick.clrTxAbrt else t.tick).foreseen ms := by
    split <;> rfl
  have hstop : ∀ u : Transfer, (if t.readClearIntrbits.1.stopDet then (u.foreseen ms).clrStopDet
      else u.foreseen ms) =
        (if t.readClearIntrbits.1.stopDet then u.clrStopDet else u).foreseen ms := by
    intro u
    split <;> rfl
  exact (congrArg (fun u : Transfer => if t.readClearIntrbits.1.stopDet then u.clrStopDet else u)
    habrt).trans (hstop _)

theorem readClearIntrbits_taken (t : Transfer) : t.readClearIntrbits.2.hw.taken = t.hw.taken := by
  have habrt : (if t.readClearIntrbits.1.txAbrt then t.tick.clrTxAbrt else t.tick).hw.taken =
      t.hw.taken := by
    split <;> simp [Transfer.clrTxAbrt]
  have hstop : ∀ u : Transfer,
      (if t.readClearIntrbits.1.stopDet then u.clrStopDet else u).hw.taken = u.hw.taken := by
    intro u
    split <;> simp [Transfer.clrStopDet]
  exact (hstop _).trans habrt

theorem foreseen_wake (t u : Transfer) (ms : List I2cMsg) (stat : Intr) :
    (t.foreseen ms).wake (u.foreseen ms) stat = (t.wake u stat).foreseen ms := by
  simp only [wake, show (u.foreseen ms).dev.msgErr = u.dev.msgErr from rfl]
  split
  · rfl
  · split <;> rfl

theorem wake_dev (t u : Transfer) (stat : Intr) :
    (t.wake u stat).dev = u.dev ∧ (t.wake u stat).hw.intrMask = u.hw.intrMask := by
  simp only [wake]
  split
  · exact ⟨rfl, rfl⟩
  · split <;> exact ⟨rfl, rfl⟩

theorem taken_irqHandlerMaster (habrt : t.readClearIntrbits.1.txAbrt = false) :
    t.irqHandlerMaster.hw.taken =
      (t.readClearIntrbits.2.beforeXferMsg t.readClearIntrbits.1).hw.taken ∧
    t.irqHandlerMaster.hw.conf =
      (t.readClearIntrbits.2.beforeXferMsg t.readClearIntrbits.1).hw.conf := by
  have hwake : ∀ u stat, (t.wake u stat).hw = u.hw := by
    intro u stat
    simp only [wake]
    split
    · rfl
    · split <;> rfl
  rw [irqHandlerMaster_eq habrt, hwake, Transfer.afterXferMsg]
  split
  · exact ⟨(i2cDwXferMsg_writes _).taken, (i2cDwXferMsg_writes _).conf⟩
  · exact ⟨rfl, rfl⟩

theorem Ahead.irqHandlerMaster (hp : Plain ms) (hv : View f) (hb : Blind f)
    (h : t.Ahead f msgs ms (t.atStop = true)) (hfits : Fits msgs ms bytes)
    (habrt : t.readClearIntrbits.1.txAbrt = false)
    (hbytes : t.irqHandlerMaster.hw.taken <+: bytes) :
    t.irqHandlerMaster.Ahead f msgs ms (t.irqHandlerMaster.atStop = true) := by
  rw [(taken_irqHandlerMaster habrt).1] at hbytes
  have hrun : (t.foreseen ms).Running f ms ((t.foreseen ms).atStop = true) := h.running
  have hstat : (t.foreseen ms).readClearIntrbits.1 = t.readClearIntrbits.1 := rfl
  obtain ⟨hdev, hmask⟩ := readClearIntrbits_dev habrt
  -- The status is read and cleared.
  obtain ⟨hclear, -, -, hwritten, hconf, hatStop⟩ :=
    readClearIntrbits_running hrun.wide (hstat ▸ habrt)
  rw [foreseen_readClearIntrbits] at hclear hwritten hconf hatStop
  have hkept := h.kept.of_dev hdev hmask
  have hstart : t.readClearIntrbits.2.Ahead f msgs ms
      (t.atStop = true ∨ t.tick.hw.stopped = true) := ⟨hclear, hkept.lengths, hkept.watch⟩
  -- The handler reads, and it writes.
  obtain ⟨hread, hreads⟩ := hstart.beforeXferMsg hp hv hfits t.readClearIntrbits.1 hbytes
  have henabled : t.readClearIntrbits.1.txEmpty = true →
      (t.readClearIntrbits.2.beforeXferMsg t.readClearIntrbits.1).hw.intrMask.txEmpty = true := by
    intro htx
    have hsame : (t.readClearIntrbits.2.beforeXferMsg t.readClearIntrbits.1).hw.intrMask =
      t.readClearIntrbits.2.hw.intrMask := hreads.intrMask
    rw [hsame, hmask]
    rw [readClearIntrbits_stat, Intr.and, Bool.and_eq_true, tick_intrMask] at htx
    exact htx.2
  obtain ⟨hu, hwrites⟩ := hread.afterXferMsg hp hv hb t.readClearIntrbits.1 henabled
  simp only [irqHandlerMaster_eq habrt]
  generalize (t.readClearIntrbits.2.beforeXferMsg t.readClearIntrbits.1).afterXferMsg
    t.readClearIntrbits.1 = u at hu hwrites
  -- The sleeper is woken.
  have hwake := wake_running hrun (hstat ▸ habrt) (u := u.foreseen ms) hu.running
    (hwrites.atStop.trans (hreads.atStop.trans hatStop))
    (by
      have hle := hwrites.written
      rw [hreads.written, hwritten] at hle
      exact hle)
    (hwrites.conf.trans (hreads.conf.trans hconf))
  rw [foreseen_wake] at hwake
  obtain ⟨hdev', hmask'⟩ := t.wake_dev u t.readClearIntrbits.1
  have hkept' := hu.kept.of_dev hdev' hmask'
  exact ⟨hwake, hkept'.lengths, hkept'.watch⟩

theorem Aborted.of_dev (h : t.Aborted f msgs) (hhw : u.hw = t.hw) (hmsgs : u.dev.msgs = t.dev.msgs)
    (hout : u.dev.rxOutstanding = t.dev.rxOutstanding)
    (hdepth : u.dev.rxFifoDepth = t.dev.rxFifoDepth) (hcmd : u.dev.cmdErr = t.dev.cmdErr)
    (herr : u.dev.msgErr = t.dev.msgErr) (hidx : u.dev.msgWriteIdx = t.dev.msgWriteIdx) :
    u.Aborted f msgs := by
  have hmsg : ∀ i, u.dev.msg i = t.dev.msg i := by
    intro i
    rw [DwI2cDev.msg, hmsgs]
    rfl
  refine ⟨⟨?_, ?_, ?_, ?_, ?_⟩, hcmd.trans h.cmdErr, herr.trans_le h.msgErr, ?_, ?_⟩
  · rw [hmsgs]
    exact h.down.length
  · intro i
    rw [hmsg, hhw]
    exact h.down.msg i
  · rw [hdepth, hhw]
    exact h.down.rxDepth
  · rw [hout, hhw]
    exact h.down.sound
  · rw [hhw]
    exact h.down.flushed
  · rw [hhw]
    exact h.mask
  · rw [hhw, hidx]
    exact h.sent

theorem irqHandlerMaster_of_abort (habrt : t.readClearIntrbits.1.txAbrt = true) :
    t.irqHandlerMaster =
      { ({ t.readClearIntrbits.2 with dev := { t.readClearIntrbits.2.dev with
          cmdErr := true, statusWrite := false, statusRead := false } } :
            Transfer).writeIntrMask Intr.none with completed := true } := by
  simp only [Transfer.irqHandlerMaster]
  rw [if_pos habrt]

theorem Ahead.abort (h : t.Ahead f msgs ms s) (habrt : t.readClearIntrbits.1.txAbrt = true) :
    (t.irqHandlerMaster.foreseen ms).Aborted f ms := by
  have habrt' : (t.foreseen ms).readClearIntrbits.1.txAbrt = true := habrt
  have hab := irqHandlerMaster_abort h.running habrt'
  rw [irqHandlerMaster_of_abort habrt', foreseen_readClearIntrbits] at hab
  rw [irqHandlerMaster_of_abort habrt]
  exact hab.of_dev rfl rfl rfl rfl rfl rfl rfl

end Transfer

open Transfer

/-! ## Runs -/

/-- What holds between interrupts when lengths come from the bus. -/
def BlockInv (f : Word → Word) (msgs ms : List I2cMsg) (t : Transfer) : Prop :=
  t.Ahead f msgs ms (t.atStop = true) ∨ (t.foreseen ms).Aborted f ms

variable {t t' : Transfer} {e : MasterEvent}

theorem BlockInv.tick (h : BlockInv f msgs ms t) : BlockInv f msgs ms t.tick := by
  rcases h with h | h
  · have hkept := h.kept.of_dev (u := t.tick) rfl (tick_intrMask t)
    exact Or.inl ⟨h.running.tick, hkept.lengths, hkept.watch⟩
  · exact Or.inr h.tick

theorem BlockInv.irqHandlerMaster (hp : Plain ms) (hv : View f) (hb : Blind f)
    (hfits : Fits msgs ms bytes) (h : BlockInv f msgs ms t)
    (hbytes : t.irqHandlerMaster.hw.taken <+: bytes) : BlockInv f msgs ms t.irqHandlerMaster := by
  rcases h with h | h
  · cases habrt : t.readClearIntrbits.1.txAbrt with
    | true => exact Or.inr (h.abort habrt)
    | false => exact Or.inl (h.irqHandlerMaster hp hv hb hfits habrt hbytes)
  · refine Or.inr ?_
    have hab := h.irqHandlerMaster
    rw [irqHandlerMaster_masked h.mask] at hab
    rw [irqHandlerMaster_masked (show t.hw.intrMask = Intr.none from h.mask)]
    have hsame : (if t.tick.dev.msgErr ≠ 0 then { t.tick with completed := true }
        else t.tick).foreseen ms =
        if (t.foreseen ms).tick.dev.msgErr ≠ 0 then { (t.foreseen ms).tick with completed := true }
        else (t.foreseen ms).tick := by
      simp only [show (t.foreseen ms).tick.dev.msgErr = t.tick.dev.msgErr from rfl]
      split <;> rfl
    rw [hsame]
    exact hab

/-- **The step lemma.**  Interrupts and the controller keep the invariant, as long as the bytes
that are taken are those that give the lengths. -/
theorem masterStep_blockInv (hp : Plain ms) (hv : View f) (hb : Blind f)
    (hfits : Fits msgs ms bytes) (h : BlockInv f msgs ms t) (hstep : masterStep t e = some t')
    (hbytes : t'.hw.taken <+: bytes) : BlockInv f msgs ms t' := by
  cases e with
  | irq sched =>
    rw [masterStep, Option.some_inj] at hstep
    subst hstep
    have hs : BlockInv f msgs ms { t with sched := sched } := by
      rcases h with h | h
      · have hr := h.running
        exact Or.inl ⟨⟨hr.live.of_dev rfl rfl ⟨rfl, rfl⟩ rfl, hr.sent, hr.recv, hr.restartEn,
          hr.mask, hr.cmdErr, hr.begun, hr.msgErr, hr.seen⟩, h.lengths, h.watch.failed,
          h.watch.mask, h.watch.reading⟩
      · exact Or.inr (h.of_dev rfl rfl rfl rfl rfl rfl rfl)
    exact hs.tick.tick.irqHandlerMaster hp hv hb hfits hbytes
  | hw e =>
    rw [masterStep, Option.some_inj] at hstep
    subst hstep
    rcases h with h | h
    · refine Or.inl ⟨h.running.of_reads ⟨rfl, by simp [Transfer.foreseen],
        by simp [Transfer.foreseen], by simp [Transfer.foreseen], rfl, rfl, rfl, rfl, rfl⟩
        (h.running.live.step e) ?_, h.lengths, h.watch.failed, ?_, h.watch.reading⟩
      · have htaken : (t.hw.step e).taken = t.hw.taken := I2cHw.step_taken _ _
        show RecvAt ms _ (t.hw.step e).taken
        rw [htaken]
        exact h.running.recv
      · have hmask : (t.hw.step e).intrMask = t.hw.intrMask := I2cHw.step_intrMask _ _
        show _ ∨ _ ∨ (t.hw.step e).intrMask = _ ∨ (_ ∧ (t.hw.step e).intrMask = _)
        rw [hmask]
        exact h.watch.mask
    · refine Or.inr ⟨h.down.step e, h.cmdErr, h.msgErr, ?_, ?_⟩
      · exact (I2cHw.step_intrMask _ _).trans h.mask
      · have hwritten : (t.hw.step e).written = t.hw.written := I2cHw.step_written _ _
        show (t.hw.step e).written.map f <+: _ ∧ (_ → (t.hw.step e).written.map f = _)
        rw [hwritten]
        exact h.sent

theorem knownLengths_eq_mapIdx (msgs : List I2cMsg) (bytes : List Byte) :
    msgs.mapIdx (fun i msg =>
      { msg with len := (msgAt (knownLengths msgs bytes) i).len, recvLen := false }) =
        knownLengths msgs bytes := by
  refine List.ext_getElem (by simp) fun i hi hi' => ?_
  have hlt : i < msgs.length := by simpa using hi
  have hat : (knownLengths msgs bytes)[i] = msgAt (knownLengths msgs bytes) i :=
    (List.getD_eq_getElem _ _ hi').symm
  have hat' : msgs[i] = msgAt msgs i := (List.getD_eq_getElem _ _ hlt).symm
  rw [List.getElem_mapIdx, hat, hat', msgAt_knownLengths _ _ hlt]
  simp only [I2cMsg.withFirst]
  split
  · rfl
  next hrecv =>
    have hnone : (msgAt msgs i).recvLen = false := by simpa using hrecv
    rw [← hnone]

theorem i2cDwXferInit_blockInv (hb : Blind f) (hpos : ∀ msg ∈ msgs, 0 < msg.len)
    (hok : LengthsOk msgs bytes) (conf : HwConf) (restartEn : Bool) :
    BlockInv f msgs (knownLengths msgs bytes) (i2cDwXferInit conf restartEn msgs) := by
  have hforeseen : (i2cDwXferInit conf restartEn msgs).foreseen (knownLengths msgs bytes) =
      i2cDwXferInit conf restartEn (knownLengths msgs bytes) := by
    simp only [Transfer.foreseen, DwI2cDev.foreseen, i2cDwXferInit, knownLengths_eq_mapIdx]
    rfl
  have hrunning : (i2cDwXferInit conf restartEn (knownLengths msgs bytes)).Running f
      (knownLengths msgs bytes) (false = true) := by
    have hinv : (i2cDwXferInit conf restartEn (knownLengths msgs bytes)).MasterInv f
      (knownLengths msgs bytes) := i2cDwXferInit_inv conf (Or.inl hb)
    rcases hinv with ⟨h, -⟩ | h
    · exact h
    · cases h.cmdErr
  have hlt : ∀ i, (msgAt msgs i).recvLen = true → i < msgs.length := by
    intro i hrecv
    by_contra hi
    rw [msgAt_of_length_le (Nat.le_of_not_lt hi)] at hrecv
    cases hrecv
  refine Or.inl ⟨hforeseen ▸ hrunning, ⟨by simp [i2cDwXferInit], fun i hrecv => ?_,
    fun i hrecv => ?_⟩, fun herr => absurd rfl herr, Or.inr (Or.inr (Or.inl rfl)),
    fun hbusy => (by cases hbusy)⟩
  · have hi := hlt i hrecv
    refine ⟨hrecv, ?_, len_lt_knownLengths hok hi hrecv, Nat.zero_le _, fun _ => Nat.zero_le _,
      fun _ hbusy => (by cases hbusy)⟩
    show 0 < (msgAt msgs i).len
    rw [msgAt, List.getD_eq_getElem _ _ hi]
    exact hpos _ (List.getElem_mem hi)
  · have hrecv' : (msgAt msgs i).recvLen = false := hrecv
    show (msgAt msgs i).len = _
    by_cases hi : i < msgs.length
    · rw [msgAt_knownLengths _ _ hi, withFirst_of_known hrecv']
    · rw [msgAt_of_length_le (Nat.le_of_not_lt hi),
        msgAt_of_length_le (by rw [knownLengths_length]; exact Nat.le_of_not_lt hi)]

theorem takes_masterStep (hstep : masterStep t e = some t') : Takes t t' := by
  cases e with
  | irq sched =>
    rw [masterStep, Option.some_inj] at hstep
    subst hstep
    have hirq : ∀ u : Transfer, Takes u u.irqHandlerMaster := by
      intro u
      have hclear : Takes u u.readClearIntrbits.2 :=
        ⟨by rw [readClearIntrbits_taken], (readClearIntrbits_reads u).conf⟩
      cases habrt : u.readClearIntrbits.1.txAbrt with
      | true =>
        rw [irqHandlerMaster_of_abort habrt]
        exact hclear.trans ⟨by simp [writeIntrMask], by simp [writeIntrMask]⟩
      | false =>
        obtain ⟨htaken, hconf⟩ := taken_irqHandlerMaster habrt
        refine hclear.trans ⟨?_, ?_⟩
        · rw [htaken, beforeXferMsg]
          split
          · exact (takes_readLoop _ _).taken
          · exact List.prefix_rfl
        · rw [hconf, beforeXferMsg]
          split
          · exact (takes_readLoop _ _).conf
          · rfl
    have htick := (Takes.tick _).trans ((Takes.tick _).trans (hirq
      (({ t with sched := sched } : Transfer).tick.tick)))
    exact ⟨htick.taken, htick.conf⟩
  | hw e =>
    rw [masterStep, Option.some_inj] at hstep
    subst hstep
    exact ⟨by rw [I2cHw.step_taken], I2cHw.step_conf _ _⟩

theorem takes_exec {es : List MasterEvent} (hrun : Runs.exec masterStep t es = some t') :
    Takes t t' := by
  induction es generalizing t with
  | nil =>
    rw [Runs.exec_nil, Option.some_inj] at hrun
    exact hrun ▸ Takes.refl t
  | cons e es ih =>
    obtain ⟨u, hstep, hrun⟩ := Runs.exec_cons.mp hrun
    exact (takes_masterStep hstep).trans (ih hrun)

/-- **The run lemma.**  The lengths are those that the bytes of the run give. -/
theorem exec_blockInv (hp : Plain ms) (hv : View f) (hb : Blind f) {es : List MasterEvent}
    (h : BlockInv f msgs ms t) (hrun : Runs.exec masterStep t es = some t')
    (hfits : Fits msgs ms t'.hw.taken) : BlockInv f msgs ms t' := by
  induction es generalizing t with
  | nil =>
    rw [Runs.exec_nil, Option.some_inj] at hrun
    exact hrun ▸ h
  | cons e es ih =>
    obtain ⟨u, hstep, hrun⟩ := Runs.exec_cons.mp hrun
    exact ih (masterStep_blockInv hp hv hb hfits h hstep (takes_exec hrun).taken) hrun

end RealtekIpcam.I2c
