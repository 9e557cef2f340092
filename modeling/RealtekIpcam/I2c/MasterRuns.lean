import RealtekIpcam.Lib.Runs
import RealtekIpcam.I2c.ReadSide

/-!
# Runs of a transfer

The interrupt handler reads what has come in, goes on with the commands, and completes the
transfer at a STOP or an abort.  `MasterInv` is what holds between interrupts: the transfer is
`Running`, with writing and reading where the driver thinks they are, or it is `Aborted`, and
nothing happens any more.

A STOP that was seen after the last command leaves no byte behind: what was in the RX FIFO is
read by the same call of the handler.
-/

namespace RealtekIpcam.I2c

variable {msgs : List I2cMsg} {f : Word → Word} {s : Prop}

namespace Transfer

variable {t : Transfer}

/-! ## The invariant -/

/-- All bytes were taken, or there is a message in progress. -/
def Drained (msgs : List I2cMsg) (t : Transfer) : Prop :=
  t.dev.statusRead = true ∨ t.hw.taken.length = readLen msgs

/-- The transfer goes on. -/
structure Running (f : Word → Word) (msgs : List I2cMsg) (s : Prop) (t : Transfer) : Prop where
  live : t.Live msgs s
  sent : SentAt f msgs t.writePlace t.hw.written
  recv : RecvAt msgs t.readPlace t.hw.taken
  restartEn : Blind f ∨ t.dev.restartEn = true
  mask : t.MaskOk
  cmdErr : t.dev.cmdErr = false
  begun : t.dev.statusWrite = true ∨ t.dev.msgWriteIdx = msgs.length ∨ t.dev.msgErr ≠ 0 ∨
    t.hw.written = []
  msgErr : t.dev.msgErr ≤ 0
  seen : t.completed = true → t.dev.msgErr ≠ 0 ∨
    (t.hw.written ≠ [] ∧ (t.hw.conf.holdMaster = true → t.atStop = true))

/-- The FIFOs are flushed; the buffers are as they were. -/
structure Down (msgs : List I2cMsg) (t : Transfer) : Prop where
  length : t.dev.msgs.length = msgs.length
  msg : ∀ i, t.dev.msg i = filled msgs t.hw.taken i
  rxDepth : t.dev.rxFifoDepth = t.hw.conf.rxDepth
  sound : t.hw.Sound t.dev.rxOutstanding
  flushed : t.hw.Flushed

/-- The handler has seen an abort. -/
structure Aborted (f : Word → Word) (msgs : List I2cMsg) (t : Transfer) : Prop where
  down : t.Down msgs
  cmdErr : t.dev.cmdErr = true
  msgErr : t.dev.msgErr ≤ 0
  mask : t.hw.intrMask = Intr.none
  sent : t.hw.written.map f <+: (commandStream msgs).map f ∧
    (t.dev.msgWriteIdx = msgs.length → t.hw.written.map f = (commandStream msgs).map f)

/-- What holds between interrupts. -/
def MasterInv (f : Word → Word) (msgs : List I2cMsg) (t : Transfer) : Prop :=
  (t.Running f msgs (t.atStop = true) ∧ (t.atStop = true → t.Drained msgs)) ∨ t.Aborted f msgs

/-! ## Small steps -/

theorem Live.step (h : t.Live msgs s) (e : HwEvent) :
    ({ t with hw := t.hw.step e } : Transfer).Live msgs s :=
  ⟨h.length, by simpa using h.msg, by simpa using h.txDepth, by simpa using h.rxDepth,
    h.sound.step e, h.sound.step_alive h.phase e,
    fun hs => h.sound.step_stopped (h.stopped hs) e, h.stopsAtEnd.step e⟩

theorem Down.step (h : t.Down msgs) (e : HwEvent) :
    ({ t with hw := t.hw.step e } : Transfer).Down msgs :=
  ⟨h.length, by simpa using h.msg, by simpa using h.rxDepth, h.sound.step e, (h.flushed.step e).1⟩

theorem Down.tick (h : t.Down msgs) : t.tick.Down msgs := by
  have hhw := foldl_step (P := fun hw => hw.Sound t.dev.rxOutstanding ∧ hw.Flushed)
    (fun hw e h => ⟨h.1.step e, (h.2.step e).1⟩) (t.sched.headD []) ⟨h.sound, h.flushed⟩
  exact ⟨h.length, by simpa using h.msg, by simpa using h.rxDepth, hhw.1, hhw.2⟩

theorem Running.of_reads {t' : Transfer} (h : t.Running f msgs s) (hr : Reads t t')
    (hlive : t'.Live msgs s) (hrecv : RecvAt msgs t'.readPlace t'.hw.taken) :
    t'.Running f msgs s := by
  have hplace := hr.writePlace
  simp only [writePlace, WritePlace.mk.injEq] at hplace
  refine ⟨hlive, ?_, hrecv, h.restartEn.imp_right hr.restartEn.trans, ?_, hr.cmdErr.trans h.cmdErr,
    ?_, hr.msgErr.trans_le h.msgErr, ?_⟩
  · rw [hr.writePlace, hr.written]
    exact h.sent
  · rw [MaskOk, hr.intrMask, hr.msgErr]
    exact h.mask
  · rw [hplace.1, hplace.2.1, hr.msgErr, hr.written]
    exact h.begun
  · rw [hr.completed, hr.msgErr, hr.written, hr.conf, hr.atStop]
    exact h.seen

theorem Running.tick (h : t.Running f msgs s) : t.tick.Running f msgs s :=
  h.of_reads (Reads.tick t) h.live.tick (by rw [tick_taken]; exact h.recv)

theorem clrStopDet_reads (t : Transfer) : Reads t t.clrStopDet :=
  ⟨rfl, tick_written t, tick_conf t, tick_intrMask t, rfl, rfl, rfl, rfl, rfl⟩

theorem Running.clrStopDet (h : t.Running f msgs s) : t.clrStopDet.Running f msgs s := by
  have htick := h.live.tick
  refine h.of_reads (clrStopDet_reads t) ⟨htick.length, htick.msg, htick.txDepth, htick.rxDepth, ?_,
    ?_, htick.stopped, fun _ _ hdet => (by cases hdet)⟩ (by
      rw [show t.clrStopDet.hw.taken = t.hw.taken from tick_taken t]
      exact h.recv)
  · have hs := htick.sound
    exact ⟨hs.outstanding, hs.le_rxDepth, hs.rxOver, hs.stop_last,
      fun hnil => ⟨(hs.quiet hnil).1, rfl⟩,
      hs.phase.imp (fun ha => ⟨ha.txAbrt, ha.commands, ha.bytes⟩)
        fun hf => ⟨hf.txFifo, hf.rxFifo, hf.busy, hf.stopped⟩⟩
  · exact htick.phase.imp_left fun ha => ⟨ha.txAbrt, ha.commands, ha.bytes⟩

theorem Running.widen {s' : Prop} (h : t.Running f msgs s) (hs : s' → t.hw.stopped = true) :
    t.Running f msgs s' :=
  ⟨⟨h.live.length, h.live.msg, h.live.txDepth, h.live.rxDepth, h.live.sound, h.live.phase, hs,
    h.live.stopsAtEnd⟩,
    h.sent, h.recv, h.restartEn, h.mask, h.cmdErr, h.begun, h.msgErr, h.seen⟩

theorem Running.complete (h : t.Running f msgs s) (atStop : Bool)
    (hseen : t.dev.msgErr ≠ 0 ∨
      (t.hw.written ≠ [] ∧ (t.hw.conf.holdMaster = true → atStop = true))) :
    ({ t with completed := true, atStop := atStop } : Transfer).Running f msgs s :=
  ⟨h.live.of_dev rfl rfl ⟨rfl, rfl⟩ rfl, h.sent, h.recv, h.restartEn, h.mask, h.cmdErr, h.begun,
    h.msgErr, fun _ => hseen⟩

theorem Running.settled (hp : Plain msgs) (hv : View f) (h : t.Running f msgs s)
    (hstop : t.hw.stopped = true) :
    t.hw.Alive ∧ t.hw.received.length = readLen msgs ∧ t.dev.msgWriteIdx = msgs.length := by
  have ha : t.hw.Alive := h.live.sound.phase.resolve_right fun hf => by simp [hf.stopped] at hstop
  have hnil := ha.pending_eq_nil h.live.sound hstop
  obtain ⟨done, hcmds, hdone, hany⟩ := ha.commands
  rw [hnil, List.append_nil] at hcmds
  have hlast : ∃ cmd ∈ t.hw.written, isStop cmd = true := by
    rw [hcmds]
    exact List.any_eq_true.mp (hany.trans hstop)
  obtain ⟨hidx, hstream⟩ := h.sent.idx_eq hp hv hlast
  refine ⟨ha, ?_, hidx⟩
  rw [← hdone, ← hcmds, hv.countP_eq hstream, commandStream, countP_streamBefore, readLen]

/-! ## The handler -/

theorem readClearIntrbits_stat (t : Transfer) :
    t.readClearIntrbits.1 = t.tick.hw.rawIntrStat.and t.tick.hw.intrMask := rfl

theorem readClearIntrbits_running (h : t.tick.Running f msgs s)
    (habrt : t.readClearIntrbits.1.txAbrt = false) :
    t.readClearIntrbits.2.Running f msgs s ∧ t.readClearIntrbits.2.readPlace = t.readPlace ∧
      t.readClearIntrbits.2.hw.taken = t.hw.taken ∧
      t.readClearIntrbits.2.hw.written = t.hw.written ∧
      t.readClearIntrbits.2.hw.conf = t.hw.conf ∧ t.readClearIntrbits.2.atStop = t.atStop := by
  have heq : t.readClearIntrbits.2 =
      if t.readClearIntrbits.1.stopDet then t.tick.clrStopDet else t.tick := by
    simp only [readClearIntrbits_stat] at habrt ⊢
    simp only [readClearIntrbits, readIntrStat, habrt]
    rfl
  rw [heq]
  split
  · exact ⟨h.clrStopDet, rfl, by simp [Transfer.clrStopDet], by simp [Transfer.clrStopDet],
      by simp [Transfer.clrStopDet], rfl⟩
  · exact ⟨h, rfl, tick_taken t, tick_written t, tick_conf t, rfl⟩

/-- The reading of the handler. -/
def beforeXferMsg (t : Transfer) (stat : Intr) : Transfer := if stat.rxFull then t.i2cDwRead else t

theorem beforeXferMsg_running (hp : Plain msgs) (h : t.Running f msgs s) (stat : Intr) :
    (t.beforeXferMsg stat).Running f msgs s ∧ Reads t (t.beforeXferMsg stat) ∧
      (stat.rxFull = true → (t.beforeXferMsg stat).Drained msgs) ∧
      (stat.rxFull = false → t.beforeXferMsg stat = t) := by
  simp only [beforeXferMsg]
  cases stat.rxFull with
  | false => exact ⟨h, Reads.refl t, fun hfull => (by cases hfull), fun _ => rfl⟩
  | true =>
    obtain ⟨⟨hlive, hrecv, hreads⟩, hexit⟩ := readLoop_recv hp t.dev.msgs.length h.live h.recv
    have hexit' := hexit (by rw [h.live.length]; exact Nat.le_add_left _ _)
    refine ⟨h.of_reads hreads hlive hrecv, hreads, fun _ => ?_, fun hfull => (by cases hfull)⟩
    cases hbusy : (readLoop t.dev.msgs.length t).dev.statusRead
    · refine Or.inr ?_
      have hidx := hexit'.resolve_left (by simp [hbusy])
      have htaken := hrecv.between hbusy
      rw [show (readLoop t.dev.msgs.length t).readPlace.idx = msgs.length from hidx] at htaken
      exact htaken
    · exact Or.inl hbusy

theorem Running.of_writes {t' : Transfer} (h : t.Running f msgs s) (hw : Writes t t')
    (hlive : t'.Live msgs s) (hsent : SentAt f msgs t'.writePlace t'.hw.written) (hmask : t'.MaskOk)
    (hexit : t'.dev.statusWrite = true ∨ t'.dev.msgWriteIdx = msgs.length ∨ t'.dev.msgErr ≠ 0) :
    t'.Running f msgs s := by
  refine ⟨hlive, hsent, ?_, h.restartEn.imp_right hw.restartEn.trans, hmask,
    hw.cmdErr.trans h.cmdErr, ?_, ?_, ?_⟩
  · rw [hw.readPlace, hw.taken]
    exact h.recv
  · rcases hexit with hbusy | hidx | herr
    · exact Or.inl hbusy
    · exact Or.inr (Or.inl hidx)
    · exact Or.inr (Or.inr (Or.inl herr))
  · rcases hw.msgErr with herr | herr
    · exact herr.trans_le h.msgErr
    · rw [herr]
      decide
  · intro hcompleted
    rcases h.seen (hw.completed.symm.trans hcompleted) with herr | ⟨hne, hstop⟩
    · refine Or.inl ?_
      rcases hw.msgErr with heq | heq
      · rwa [heq]
      · rw [heq]
        decide
    · refine Or.inr ⟨fun hnil => hne ?_, fun hhold => ?_⟩
      · have := hw.written
        rw [hnil] at this
        exact List.prefix_nil.mp this
      · exact hw.atStop.trans (hstop ((congrArg HwConf.holdMaster hw.conf).symm.trans hhold))

theorem i2cDwXferMsg_running (hp : Plain msgs) (hv : View f) (h : t.Running f msgs s)
    (hroom : Blind f ∨ XferLoop.StartsWithRoom (t.dev.msg t.dev.msgWriteIdx).addr t.dev.msgs.length
      ⟨t, t.dev.txBuf, t.dev.txBufLen, false⟩) :
    t.i2cDwXferMsg.Running f msgs s := by
  obtain ⟨hlive, hsent, hmask, hexit⟩ := i2cDwXferMsg_sent hp hv h.live h.sent h.restartEn hroom
  exact h.of_writes (i2cDwXferMsg_writes t) hlive hsent hmask hexit

theorem clrTxAbrt_reads (t : Transfer) : Reads t t.clrTxAbrt :=
  ⟨rfl, by simp [Transfer.clrTxAbrt], by simp [Transfer.clrTxAbrt], by simp [Transfer.clrTxAbrt],
    rfl, rfl, rfl, rfl, rfl⟩

theorem readClearIntrbits_reads (t : Transfer) : Reads t t.readClearIntrbits.2 := by
  have habrt : Reads t.tick
      (if t.readClearIntrbits.1.txAbrt then t.tick.clrTxAbrt else t.tick) := by
    split
    · exact clrTxAbrt_reads _
    · exact Reads.refl _
  have hstop : ∀ u : Transfer,
      Reads u (if t.readClearIntrbits.1.stopDet then u.clrStopDet else u) := by
    intro u
    split
    · exact clrStopDet_reads u
    · exact Reads.refl u
  exact ((Reads.tick t).trans habrt).trans (hstop _)

theorem Down.clrTxAbrt (h : t.Down msgs) : t.clrTxAbrt.Down msgs := by
  have hsource := (show ({ t.tick with dev := { t.tick.dev with
      abortSource := t.tick.hw.abortSource } } : Transfer).Down msgs from
    ⟨h.tick.length, h.tick.msg, h.tick.rxDepth, h.tick.sound, h.tick.flushed⟩).tick
  have hs := hsource.sound
  have hf := hsource.flushed
  exact ⟨hsource.length, hsource.msg, hsource.rxDepth, ⟨hs.outstanding, hs.le_rxDepth, hs.rxOver,
    hs.stop_last, hs.quiet, Or.inr ⟨hf.txFifo, hf.rxFifo, hf.busy, hf.stopped⟩⟩,
    ⟨hf.txFifo, hf.rxFifo, hf.busy, hf.stopped⟩⟩

theorem Down.clrStopDet (h : t.Down msgs) : t.clrStopDet.Down msgs := by
  have hs := h.tick.sound
  have hf := h.tick.flushed
  exact ⟨h.length, h.tick.msg, h.tick.rxDepth, ⟨hs.outstanding, hs.le_rxDepth, hs.rxOver,
    hs.stop_last, fun hnil => ⟨(hs.quiet hnil).1, rfl⟩,
    Or.inr ⟨hf.txFifo, hf.rxFifo, hf.busy, hf.stopped⟩⟩,
    ⟨hf.txFifo, hf.rxFifo, hf.busy, hf.stopped⟩⟩

theorem readClearIntrbits_down (h : t.tick.Down msgs)
    (habrt : t.readClearIntrbits.1.txAbrt = true) : t.readClearIntrbits.2.Down msgs := by
  have heq : t.readClearIntrbits.2 =
      if t.readClearIntrbits.1.stopDet then t.tick.clrTxAbrt.clrStopDet else t.tick.clrTxAbrt := by
    simp only [readClearIntrbits_stat] at habrt ⊢
    simp only [readClearIntrbits, readIntrStat, habrt]
    rfl
  rw [heq]
  split
  · exact h.clrTxAbrt.clrStopDet
  · exact h.clrTxAbrt

/-- An abort ends the transfer. -/
theorem irqHandlerMaster_abort (h : t.Running f msgs s)
    (habrt : t.readClearIntrbits.1.txAbrt = true) : t.irqHandlerMaster.Aborted f msgs := by
  have htick := h.tick
  have hraw : t.tick.hw.txAbrt = true := by
    rw [readClearIntrbits_stat, Intr.and, Bool.and_eq_true] at habrt
    exact habrt.1
  have hdown := readClearIntrbits_down ⟨htick.live.length, htick.live.msg, htick.live.rxDepth,
    htick.live.sound, htick.live.sound.flushed hraw⟩ habrt
  have hreads := readClearIntrbits_reads t
  -- The driver gives up: its flags are set, and all interrupts are masked.
  obtain ⟨u, hu, hhw, hdev⟩ : ∃ u : Transfer, t.irqHandlerMaster =
      { u.writeIntrMask Intr.none with completed := true } ∧ u.hw = t.readClearIntrbits.2.hw ∧
        u.dev = { t.readClearIntrbits.2.dev with
          cmdErr := true, statusWrite := false, statusRead := false } := by
    refine ⟨{ t.readClearIntrbits.2 with dev := { t.readClearIntrbits.2.dev with
      cmdErr := true, statusWrite := false, statusRead := false } }, ?_, rfl, rfl⟩
    simp only [irqHandlerMaster]
    rw [if_pos habrt]
  have hdown' : u.Down msgs := by
    refine ⟨?_, ?_, ?_, ?_, ?_⟩ <;> simp only [hdev, hhw]
    · exact hdown.length
    · exact hdown.msg
    · exact hdown.rxDepth
    · exact hdown.sound
    · exact hdown.flushed
  have hd := hdown'.tick
  have hf := hd.flushed
  have hwritten : u.tick.hw.written = t.hw.written := by
    rw [tick_written, hhw]
    exact hreads.written
  have hidx : u.dev.msgWriteIdx = t.dev.msgWriteIdx := by
    rw [hdev]
    exact congrArg WritePlace.idx hreads.writePlace
  rw [hu]
  refine ⟨⟨hd.length, hd.msg, hd.rxDepth, hd.sound.writeIntrMask _,
    ⟨hf.txFifo, hf.rxFifo, hf.busy, hf.stopped⟩⟩, ?_, ?_, rfl, ?_⟩
  · show u.dev.cmdErr = true
    rw [hdev]
  · show u.dev.msgErr ≤ 0
    rw [hdev]
    exact hreads.msgErr.trans_le h.msgErr
  · show u.tick.hw.written.map f <+: _ ∧ (u.dev.msgWriteIdx = _ → u.tick.hw.written.map f = _)
    rw [hwritten, hidx]
    exact h.sent.view_prefix

/-- The writing of the handler. -/
def afterXferMsg (t : Transfer) (stat : Intr) : Transfer :=
  if stat.txEmpty then t.i2cDwXferMsg else t

theorem afterXferMsg_running (hp : Plain msgs) (hv : View f) (h : t.Running f msgs s) (stat : Intr)
    (hroom : Blind f ∨ (stat.txEmpty = true →
      XferLoop.StartsWithRoom (t.dev.msg t.dev.msgWriteIdx).addr t.dev.msgs.length
        ⟨t, t.dev.txBuf, t.dev.txBufLen, false⟩)) :
    (t.afterXferMsg stat).Running f msgs s ∧ Writes t (t.afterXferMsg stat) := by
  unfold afterXferMsg
  split
  next htx =>
    exact ⟨i2cDwXferMsg_running hp hv h (hroom.imp_right fun hroom => hroom htx),
      i2cDwXferMsg_writes t⟩
  next => exact ⟨h, Writes.refl t⟩

/-- The end of the handler in `u`, where it was entered in `t`. -/
def wake (t u : Transfer) (stat : Intr) : Transfer :=
  if stat.stopDet then { u with completed := true, atStop := u.atStop || t.tick.hw.stopped }
  else if u.dev.msgErr ≠ 0 then { u with completed := true }
  else u

theorem irqHandlerMaster_eq (habrt : t.readClearIntrbits.1.txAbrt = false) :
    t.irqHandlerMaster =
      let stat := t.readClearIntrbits.1
      t.wake ((t.readClearIntrbits.2.beforeXferMsg stat).afterXferMsg stat) stat := by
  simp only [irqHandlerMaster]
  rw [if_neg (by rw [habrt]; simp)]
  rfl

theorem drained_of_over (hp : Plain msgs) (hv : View f) (h : t.Running f msgs (t.atStop = true))
    (hdrained : t.atStop = true → t.Drained msgs) (habrt : t.readClearIntrbits.1.txAbrt = false)
    (hover : t.atStop = true ∨
      (t.tick.hw.stopped = true ∧ t.readClearIntrbits.1.stopDet = true)) :
    (t.readClearIntrbits.2.beforeXferMsg t.readClearIntrbits.1).Drained msgs := by
  have htick := h.tick
  obtain ⟨hclear, hplace, htaken, -⟩ := readClearIntrbits_running htick habrt
  obtain ⟨-, -, hfull, hempty⟩ := beforeXferMsg_running hp hclear t.readClearIntrbits.1
  cases hrx : t.readClearIntrbits.1.rxFull with
  | true => exact hfull hrx
  | false =>
    rw [hempty hrx, Drained, htaken,
      show t.readClearIntrbits.2.dev.statusRead = t.dev.statusRead from
        congrArg ReadPlace.busy hplace]
    rcases hover with hstop | ⟨hstop, hdet⟩
    · exact hdrained hstop
    · -- Nothing is left in the FIFO, so what was taken is what was received.
      refine Or.inr ?_
      obtain ⟨ha, hreceived, -⟩ := htick.settled hp hv hstop
      rw [readClearIntrbits_stat, Intr.and, Bool.and_eq_true] at hdet
      rw [readClearIntrbits_stat, Intr.and, htick.mask.1, hdet.2, Bool.and_true] at hrx
      have hnone : t.tick.hw.rxFifo = [] := by simpa [I2cHw.rawIntrStat] using hrx
      have hbytes := ha.bytes
      rw [hnone, List.append_nil, tick_taken] at hbytes
      rw [← hbytes]
      exact hreceived

/-- Where a stop was seen there was a command, and a controller that holds the bus stops at the
end only. -/
theorem of_stopDet (h : t.tick.Running f msgs s) (habrt : t.readClearIntrbits.1.txAbrt = false)
    (hdet : t.readClearIntrbits.1.stopDet = true) :
    t.hw.written ≠ [] ∧ (t.hw.conf.holdMaster = true → t.tick.hw.stopped = true) := by
  rw [readClearIntrbits_stat, Intr.and, Bool.and_eq_true] at hdet
  rw [readClearIntrbits_stat, Intr.and, h.mask.2.1, hdet.2, Bool.and_true] at habrt
  refine ⟨fun hnil => ?_, fun hhold => ?_⟩
  · have hquiet := h.live.sound.quiet ((tick_written t).trans hnil)
    rw [show t.tick.hw.rawIntrStat.stopDet = t.tick.hw.stopDet from rfl, hquiet.2] at hdet
    cases hdet.1
  · rw [← tick_conf] at hhold
    exact h.live.stopsAtEnd hhold habrt hdet.1

theorem Running.wide (h : t.Running f msgs (t.atStop = true)) :
    t.tick.Running f msgs (t.atStop = true ∨ t.tick.hw.stopped = true) :=
  h.tick.widen fun hs => hs.elim h.tick.live.stopped id

theorem wake_running (h : t.Running f msgs (t.atStop = true))
    (habrt : t.readClearIntrbits.1.txAbrt = false) {u : Transfer}
    (hu : u.Running f msgs (t.atStop = true ∨ t.tick.hw.stopped = true))
    (hatStop : u.atStop = t.atStop) (hwritten : t.hw.written <+: u.hw.written)
    (hconf : u.hw.conf = t.hw.conf) :
    (t.wake u t.readClearIntrbits.1).Running f msgs
      ((t.wake u t.readClearIntrbits.1).atStop = true) := by
  have hstopped : u.atStop = true → u.hw.stopped = true := fun hs =>
    hu.live.stopped (Or.inl (hatStop.symm.trans hs))
  simp only [wake]
  split
  next hdet =>
    obtain ⟨hne, hhold⟩ := of_stopDet h.tick habrt hdet
    refine (hu.widen fun hs => ?_).complete _ (Or.inr ⟨fun hnil => hne ?_, fun hh => ?_⟩)
    · rw [hatStop, Bool.or_eq_true] at hs
      exact hu.live.stopped hs
    · rw [hnil] at hwritten
      exact List.prefix_nil.mp hwritten
    · rw [hconf] at hh
      rw [hhold hh, Bool.or_true]
  next =>
    split
    next herr => exact (hu.widen hstopped).complete u.atStop (Or.inl herr)
    next => exact hu.widen hstopped

/-- The end of the interrupt handler keeps the invariant. -/
theorem wake_inv (hp : Plain msgs) (hv : View f) (h : t.Running f msgs (t.atStop = true))
    (hdrained : t.atStop = true → t.Drained msgs) (habrt : t.readClearIntrbits.1.txAbrt = false)
    {u : Transfer} (hu : u.Running f msgs (t.atStop = true ∨ t.tick.hw.stopped = true))
    (hw : Writes (t.readClearIntrbits.2.beforeXferMsg t.readClearIntrbits.1) u) :
    (t.wake u t.readClearIntrbits.1).MasterInv f msgs := by
  obtain ⟨hclear, -, -, hwritten, hconf, hatStop⟩ := readClearIntrbits_running h.wide habrt
  obtain ⟨-, hreads, -, -⟩ := beforeXferMsg_running hp hclear t.readClearIntrbits.1
  have hu_atStop : u.atStop = t.atStop := hw.atStop.trans (hreads.atStop.trans hatStop)
  have hu_written : t.hw.written <+: u.hw.written := by
    have hle := hw.written
    rw [hreads.written, hwritten] at hle
    exact hle
  refine Or.inl ⟨wake_running h habrt hu hu_atStop hu_written
    (hw.conf.trans (hreads.conf.trans hconf)), ?_⟩
  have hu_drained : (t.atStop = true ∨ (t.tick.hw.stopped = true ∧
      t.readClearIntrbits.1.stopDet = true)) → u.Drained msgs := by
    intro hover
    rw [Drained, show u.dev.statusRead = _ from congrArg ReadPlace.busy hw.readPlace, hw.taken]
    exact drained_of_over hp hv h hdrained habrt hover
  simp only [wake]
  split
  next hdet =>
    intro hs
    rw [hu_atStop, Bool.or_eq_true] at hs
    exact hu_drained (hs.imp_right fun hs => ⟨hs, hdet⟩)
  next =>
    split
    next => exact fun hs => hu_drained (Or.inl (hu_atStop.symm.trans hs))
    next => exact fun hs => hu_drained (Or.inl (hu_atStop.symm.trans hs))

theorem irqHandlerMaster_inv (hp : Plain msgs) (hv : View f)
    (h : t.Running f msgs (t.atStop = true)) (hdrained : t.atStop = true → t.Drained msgs)
    (hroom : Blind f ∨ (t.readClearIntrbits.1.txAbrt = false →
      t.readClearIntrbits.1.txEmpty = true →
        let t' := t.readClearIntrbits.2.beforeXferMsg t.readClearIntrbits.1
        XferLoop.StartsWithRoom (t'.dev.msg t'.dev.msgWriteIdx).addr t'.dev.msgs.length
          ⟨t', t'.dev.txBuf, t'.dev.txBufLen, false⟩)) :
    t.irqHandlerMaster.MasterInv f msgs := by
  cases habrt : t.readClearIntrbits.1.txAbrt with
  | true => exact Or.inr (irqHandlerMaster_abort h habrt)
  | false =>
    obtain ⟨hclear, -⟩ := readClearIntrbits_running h.wide habrt
    obtain ⟨hread, -⟩ := beforeXferMsg_running hp hclear t.readClearIntrbits.1
    obtain ⟨hu, hw⟩ := afterXferMsg_running hp hv hread t.readClearIntrbits.1
      (hroom.imp_right fun hroom => hroom habrt)
    rw [irqHandlerMaster_eq habrt]
    exact wake_inv hp hv h hdrained habrt hu hw

theorem irqHandlerMaster_masked (hmask : t.hw.intrMask = Intr.none) :
    t.irqHandlerMaster =
      if t.tick.dev.msgErr ≠ 0 then { t.tick with completed := true } else t.tick := by
  have hstat : t.readClearIntrbits.1 = Intr.none := by
    rw [readClearIntrbits_stat, tick_intrMask, hmask]
    simp [Intr.and, Intr.none]
  have hbits : t.readClearIntrbits.2 = t.tick := by
    have h1 : t.readClearIntrbits.1.txAbrt = false := by rw [hstat]; rfl
    have h2 : t.readClearIntrbits.1.stopDet = false := by rw [hstat]; rfl
    simp only [readClearIntrbits_stat] at h1 h2
    simp only [readClearIntrbits, readIntrStat, h1, h2]
    rfl
  simp only [irqHandlerMaster, hstat, hbits]
  rfl

theorem Aborted.irqHandlerMaster (h : t.Aborted f msgs) : t.irqHandlerMaster.Aborted f msgs := by
  have hsent := h.sent
  have hd := h.down.tick
  rw [irqHandlerMaster_masked h.mask]
  split
  · refine ⟨⟨hd.length, hd.msg, hd.rxDepth, hd.sound, hd.flushed⟩, h.cmdErr, h.msgErr,
      (tick_intrMask t).trans h.mask, ?_⟩
    rw [← tick_written] at hsent
    exact hsent
  · refine ⟨hd, h.cmdErr, h.msgErr, (tick_intrMask t).trans h.mask, ?_⟩
    rw [← tick_written] at hsent
    exact hsent

theorem Aborted.tick (h : t.Aborted f msgs) : t.tick.Aborted f msgs := by
  refine ⟨h.down.tick, h.cmdErr, h.msgErr, (tick_intrMask t).trans h.mask, ?_⟩
  have hsent := h.sent
  rw [← tick_written] at hsent
  exact hsent

theorem MasterInv.tick (h : t.MasterInv f msgs) : t.tick.MasterInv f msgs := by
  rcases h with ⟨h, hdrained⟩ | h
  · refine Or.inl ⟨h.tick, fun hs => ?_⟩
    rw [Drained, tick_taken]
    exact hdrained hs
  · exact Or.inr h.tick

end Transfer

open Transfer

/-! ## Runs -/

/-- Every message that the interrupt begins finds room. -/
def RestartOk (t : Transfer) : MasterEvent → Prop
  | .irq sched =>
    let (stat, t) := ({ t with sched := sched } : Transfer).tick.tick.readClearIntrbits
    let t := t.beforeXferMsg stat
    stat.txAbrt = false → stat.txEmpty = true →
      XferLoop.StartsWithRoom (t.dev.msg t.dev.msgWriteIdx).addr t.dev.msgs.length
        ⟨t, t.dev.txBuf, t.dev.txBufLen, false⟩
  | .hw _ => True

instance decidableRestartOk (t : Transfer) : DecidablePred (RestartOk t)
  | .irq _ => inferInstanceAs (Decidable (_ → _ → _))
  | .hw _ => isTrue trivial

/-- **The step lemma.**  Interrupts and the controller keep the invariant. -/
theorem masterStep_inv (hp : Plain msgs) (hv : View f) {t t' : Transfer} {e : MasterEvent}
    (h : t.MasterInv f msgs) (hroom : Blind f ∨ RestartOk t e) (hstep : masterStep t e = some t') :
    t'.MasterInv f msgs := by
  cases e with
  | irq sched =>
    rw [masterStep, Option.some_inj] at hstep
    subst hstep
    have hs : ({ t with sched := sched } : Transfer).MasterInv f msgs := by
      rcases h with ⟨h, hdrained⟩ | h
      · exact Or.inl ⟨⟨h.live.of_dev rfl rfl ⟨rfl, rfl⟩ rfl, h.sent, h.recv, h.restartEn,
          h.mask, h.cmdErr, h.begun, h.msgErr, h.seen⟩, hdrained⟩
      · exact Or.inr ⟨⟨h.down.length, h.down.msg, h.down.rxDepth, h.down.sound, h.down.flushed⟩,
          h.cmdErr, h.msgErr, h.mask, h.sent⟩
    rcases hs.tick.tick with ⟨h, hdrained⟩ | h
    · exact irqHandlerMaster_inv hp hv h hdrained hroom
    · exact Or.inr h.irqHandlerMaster
  | hw e =>
    rw [masterStep, Option.some_inj] at hstep
    subst hstep
    rcases h with ⟨h, hdrained⟩ | h
    · refine Or.inl ⟨h.of_reads ⟨rfl, by simp, by simp, by simp, rfl, rfl, rfl, rfl, rfl⟩
        (h.live.step e) (by rw [I2cHw.step_taken]; exact h.recv), fun hs => ?_⟩
      rw [Drained, I2cHw.step_taken]
      exact hdrained hs
    · refine Or.inr ⟨h.down.step e, h.cmdErr, h.msgErr, ?_, ?_⟩
      · rw [I2cHw.step_intrMask]
        exact h.mask
      · rw [I2cHw.step_written]
        exact h.sent

/-- A transfer begins with the invariant. -/
theorem i2cDwXferInit_inv (conf : HwConf) {restartEn : Bool} (hen : Blind f ∨ restartEn = true) :
    (i2cDwXferInit conf restartEn msgs).MasterInv f msgs := by
  refine Or.inl ⟨⟨⟨rfl, fun i => ?_, rfl, rfl, ⟨?_, ?_, rfl, ?_, fun _ => ⟨rfl, rfl⟩, Or.inl ?_⟩,
    Or.inl ?_, fun hs => (by cases hs), fun _ _ hdet => (by cases hdet)⟩,
    ⟨Nat.zero_le _, fun _ => rfl, fun hbusy => (by cases hbusy)⟩,
    ⟨Nat.zero_le _, fun _ => rfl, fun hbusy => (by cases hbusy)⟩, hen,
    ⟨rfl, rfl, fun herr => absurd rfl herr⟩,
    rfl, Or.inr (Or.inr (Or.inr rfl)), Int.le_refl 0, fun hs => (by cases hs)⟩,
    fun hs => (by cases hs)⟩
  · rw [show (i2cDwXferInit conf restartEn msgs).hw.taken = [] from rfl, filled_nil]
    rfl
  · rfl
  · exact Int.natCast_nonneg _
  · intro cmd hcmd
    cases hcmd
  · exact ⟨rfl, ⟨[], rfl, rfl, rfl⟩, rfl⟩
  · exact ⟨rfl, ⟨[], rfl, rfl, rfl⟩, rfl⟩

theorem exec_masterInv (hp : Plain msgs) (hv : View f) (conf : HwConf) {restartEn : Bool}
    (hen : Blind f ∨ restartEn = true) {es : List MasterEvent} {t : Transfer}
    (hroom : Runs.Along masterStep (fun t e => Blind f ∨ RestartOk t e)
      (i2cDwXferInit conf restartEn msgs) es)
    (hrun : Runs.exec masterStep (i2cDwXferInit conf restartEn msgs) es = some t) :
    t.MasterInv f msgs :=
  Runs.exec_invariant (P := MasterInv f msgs)
    (fun _ _ _ h hroom hstep => masterStep_inv hp hv h hroom hstep)
    (i2cDwXferInit_inv conf hen) hroom hrun

end RealtekIpcam.I2c
