import RealtekIpcam.I2c.WriteSide

/-!
# The driver reads its bytes

`i2c_dw_read` takes what is in the RX FIFO and puts it into the buffers of the read messages.
It may stop in the middle of a message, and goes on there the next time.  The bytes that were
taken are those that the buffers hold, and their number says where the reading is.
-/

namespace RealtekIpcam.I2c

variable {msgs : List I2cMsg} {s : Prop}

theorem DwI2cDev.store_msg (dev : DwI2cDev) {i : Nat} (hi : i < dev.msgs.length) (off : Nat)
    (byte : Byte) (i' : Nat) : (dev.store ⟨i, off⟩ byte).msg i' =
      if i' = i then (dev.msg i).store off byte else dev.msg i' := by
  simp only [DwI2cDev.store, DwI2cDev.msg, List.getD_eq_getElem?_getD, List.getElem?_modify]
  by_cases hii : i' = i
  · subst hii
    rw [if_pos rfl, List.getElem?_eq_getElem hi]
    simp
  · have hne : ¬ i = i' := fun h => hii h.symm
    simp [hii, hne]

namespace Transfer

variable {t : Transfer}

/-- Reading changes nothing that the writing uses. -/
structure Reads (t t' : Transfer) : Prop where
  writePlace : t'.writePlace = t.writePlace
  written : t'.hw.written = t.hw.written
  conf : t'.hw.conf = t.hw.conf
  intrMask : t'.hw.intrMask = t.hw.intrMask
  cmdErr : t'.dev.cmdErr = t.dev.cmdErr
  msgErr : t'.dev.msgErr = t.dev.msgErr
  restartEn : t'.dev.restartEn = t.dev.restartEn
  completed : t'.completed = t.completed
  atStop : t'.atStop = t.atStop

theorem Reads.refl (t : Transfer) : Reads t t := ⟨rfl, rfl, rfl, rfl, rfl, rfl, rfl, rfl, rfl⟩

theorem Reads.trans {t u v : Transfer} (h : Reads t u) (h' : Reads u v) : Reads t v :=
  ⟨h'.writePlace.trans h.writePlace, h'.written.trans h.written, h'.conf.trans h.conf,
    h'.intrMask.trans h.intrMask,
    h'.cmdErr.trans h.cmdErr, h'.msgErr.trans h.msgErr, h'.restartEn.trans h.restartEn,
    h'.completed.trans h.completed, h'.atStop.trans h.atStop⟩

theorem Reads.tick (t : Transfer) : Reads t t.tick :=
  ⟨rfl, tick_written t, tick_conf t, tick_intrMask t, rfl, rfl, rfl, rfl, rfl⟩

/-- The bytes before the place were taken. -/
structure RecvAt (msgs : List I2cMsg) (place : ReadPlace) (taken : List Byte) : Prop where
  idx_le : place.idx ≤ msgs.length
  between : place.busy = false → taken.length = readLenBefore msgs place.idx
  within : place.busy = true → place.idx < msgs.length ∧ (msgAt msgs place.idx).rd = true ∧
    place.bufLen ≤ (msgAt msgs place.idx).len ∧
    place.buf = ⟨place.idx, (msgAt msgs place.idx).len - place.bufLen⟩ ∧
    taken.length = readLenBefore msgs place.idx + ((msgAt msgs place.idx).len - place.bufLen)

/-! ## The inner loop -/

namespace Drain

/-- The inner loop in message `i`, from the state `t`. -/
structure Inv (msgs : List I2cMsg) (s : Prop) (t : Transfer) (i : Nat) (d : Drain) : Prop where
  live : d.t.Live msgs s
  reads : Reads t d.t
  idx : d.t.dev.msgReadIdx = i
  len : d.len ≤ (msgAt msgs i).len
  buf : d.buf = ⟨i, (msgAt msgs i).len - d.len⟩
  taken : d.t.hw.taken.length = readLenBefore msgs i + ((msgAt msgs i).len - d.len)

variable {d : Drain} {i : Nat}

theorem round_eq (hrecv : (d.t.dev.msg d.t.dev.msgReadIdx).recvLen = false) :
    d.round =
      { t := { d.t.readDataCmd.2 with
          dev := { d.t.dev.store d.buf d.t.readDataCmd.1 with
            rxOutstanding := d.t.dev.rxOutstanding - 1 } }
        len := d.len - 1
        buf := d.buf.succ } := by
  have hcond : ¬ ((d.t.readDataCmd.2.dev.msg d.t.readDataCmd.2.dev.msgReadIdx).recvLen = true ∧
      d.t.readDataCmd.1.toNat ≤ i2cSmbusBlockMax ∧ d.t.readDataCmd.1.toNat > 0) := by
    rintro ⟨h, -⟩
    rw [show d.t.readDataCmd.2.dev = d.t.dev from rfl, hrecv] at h
    cases h
  simp only [round, if_neg hcond]
  rfl

/-- One byte is read. -/
theorem Inv.round (hp : Plain msgs) (h : d.Inv msgs s t i) (hi : i < msgs.length)
    (hrd : (msgAt msgs i).rd = true) (hpos : 0 < d.len) {n : Nat}
    (hvalid : d.t.hw.txAbrt = false → n + 1 ≤ d.t.hw.rxFifo.length) :
    d.round.Inv msgs s t i ∧ (d.round.t.hw.txAbrt = false → n ≤ d.round.t.hw.rxFifo.length) := by
  have hle := h.len
  have htick := h.live.tick
  rw [round_eq (h.live.recvLen hp _)]
  have hbyte : d.t.tick.hw.txAbrt = false → d.t.tick.hw.rxFifo ≠ [] := by
    intro habrt hnil
    obtain ⟨hbefore, hmore⟩ := tick_rxFifo_le d.t habrt
    have := hvalid hbefore
    rw [hnil, List.length_nil] at hmore
    omega
  obtain ⟨hsound, hphase⟩ := htick.sound.readDataCmd htick.phase hbyte
  obtain ⟨htaken, hwritten, hconf, hstopped, hdet, habrt', hshrink⟩ := d.t.tick.hw.readDataCmd_frame
  rw [tick_taken] at htaken
  refine ⟨⟨⟨?_, ?_, ?_, ?_, hsound, hphase, ?_, ?_⟩, ?_, h.idx, ?_, ?_, ?_⟩, ?_⟩
  · show (d.t.dev.msgs.modify _ _).length = _
    rw [List.length_modify]
    exact h.live.length
  · intro i'
    show (d.t.dev.store d.buf d.t.tick.hw.readDataCmd.1).msg i' =
      filled msgs d.t.tick.hw.readDataCmd.2.taken i'
    rw [htaken, h.buf, DwI2cDev.store_msg _ (by rw [h.live.length]; exact hi),
      h.live.msg, h.live.msg, filled_append _ _ hrd (by omega) h.taken]
  · show d.t.dev.txFifoDepth = d.t.tick.hw.readDataCmd.2.conf.txDepth
    rw [hconf, tick_conf]
    exact h.live.txDepth
  · show d.t.dev.rxFifoDepth = d.t.tick.hw.readDataCmd.2.conf.rxDepth
    rw [hconf, tick_conf]
    exact h.live.rxDepth
  · intro hs
    exact hstopped.trans (htick.stopped hs)
  · intro hhold hnone hstop
    exact hstopped.trans (htick.stopsAtEnd ((congrArg HwConf.holdMaster hconf).symm.trans hhold)
      (habrt'.symm.trans hnone) (hdet.symm.trans hstop))
  · have hr := h.reads
    refine ⟨hr.writePlace, hwritten.trans ((tick_written _).trans hr.written),
      hconf.trans ((tick_conf _).trans hr.conf), ?_, hr.cmdErr, hr.msgErr,
      hr.restartEn, hr.completed, hr.atStop⟩
    show d.t.tick.hw.readDataCmd.2.intrMask = _
    rw [I2cHw.readDataCmd_intrMask, tick_intrMask]
    exact hr.intrMask
  · show d.len - 1 ≤ _
    omega
  · show d.buf.succ = ⟨i, (msgAt msgs i).len - (d.len - 1)⟩
    rw [h.buf, BufPtr.succ, BufPtr.mk.injEq]
    exact ⟨rfl, by show (msgAt msgs i).len - d.len + 1 = _; omega⟩
  · show d.t.tick.hw.readDataCmd.2.taken.length =
      readLenBefore msgs i + ((msgAt msgs i).len - (d.len - 1))
    rw [htaken, List.length_append, List.length_singleton, h.taken]
    omega
  · intro habrt
    have hafter : d.t.tick.hw.txAbrt = false := habrt'.symm.trans habrt
    obtain ⟨hbefore, hmore⟩ := tick_rxFifo_le d.t hafter
    have := hvalid hbefore
    show n ≤ d.t.tick.hw.readDataCmd.2.rxFifo.length
    omega

theorem Inv.run (hp : Plain msgs) (hi : i < msgs.length) (hrd : (msgAt msgs i).rd = true) (n : Nat)
    {d : Drain} (h : d.Inv msgs s t i) (hvalid : d.t.hw.txAbrt = false → n ≤ d.t.hw.rxFifo.length) :
    (Drain.run n d).Inv msgs s t i := by
  induction n generalizing d with
  | zero => exact h
  | succ n ih =>
    rw [Drain.run]
    split
    next hpos =>
      obtain ⟨hround, hvalid'⟩ := h.round hp hi hrd hpos hvalid
      exact ih hround hvalid'
    next => exact h

/-- The end of a round of the outer loop. -/
def finish (d : Drain) : Transfer × Bool :=
  if d.len > 0 then
    ({ d.t with
      dev := { d.t.dev with statusRead := true, rxBufLen := d.len, rxBuf := d.buf } }, false)
  else
    ({ d.t with dev := { d.t.dev with
        statusRead := false
        msgReadIdx := d.t.dev.msgReadIdx + 1 } }, true)

theorem Inv.finish (h : d.Inv msgs s t i) (hi : i < msgs.length) (hrd : (msgAt msgs i).rd = true) :
    (d.finish.1.Live msgs s ∧ RecvAt msgs d.finish.1.readPlace d.finish.1.hw.taken ∧
      Reads t d.finish.1) ∧
      (d.finish.2 = true → d.finish.1.dev.msgReadIdx = i + 1) ∧
      (d.finish.2 = false → d.finish.1.dev.statusRead = true) := by
  have hr := h.reads
  have hreads : ∀ t' : Transfer, t'.writePlace = d.t.writePlace → t'.hw = d.t.hw →
      t'.dev.cmdErr = d.t.dev.cmdErr → t'.dev.msgErr = d.t.dev.msgErr →
      t'.dev.restartEn = d.t.dev.restartEn → t'.completed = d.t.completed →
      t'.atStop = d.t.atStop → Reads t t' := by
    intro t' hplace hhw hcmd hmsg hen hcompleted hstop
    exact ⟨hplace.trans hr.writePlace, (congrArg I2cHw.written hhw).trans hr.written,
      (congrArg I2cHw.conf hhw).trans hr.conf,
      (congrArg I2cHw.intrMask hhw).trans hr.intrMask, hcmd.trans hr.cmdErr, hmsg.trans hr.msgErr,
      hen.trans hr.restartEn, hcompleted.trans hr.completed, hstop.trans hr.atStop⟩
  simp only [Drain.finish]
  split
  next hleft =>
    refine ⟨⟨?_, ?_, hreads _ rfl rfl rfl rfl rfl rfl rfl⟩, fun hmore => (by cases hmore),
      fun _ => rfl⟩
    · exact h.live.of_dev rfl rfl ⟨rfl, rfl⟩ rfl
    · refine ⟨h.idx.le.trans (Nat.le_of_lt hi), fun hbusy => (by cases hbusy), fun _ => ?_⟩
      simp only [readPlace]
      rw [h.idx]
      exact ⟨hi, hrd, h.len, h.buf, h.taken⟩
  next hdone =>
    refine ⟨⟨?_, ?_, hreads _ rfl rfl rfl rfl rfl rfl rfl⟩, fun _ => congrArg (· + 1) h.idx,
      fun hmore => (by cases hmore)⟩
    · exact h.live.of_dev rfl rfl ⟨rfl, rfl⟩ rfl
    · refine ⟨(congrArg (· + 1) h.idx).le.trans hi, fun _ => ?_, fun hbusy => (by cases hbusy)⟩
      have htaken := h.taken
      rw [Nat.eq_zero_of_not_pos hdone, Nat.sub_zero, ← readLenBefore_succ hrd] at htaken
      simp only [readPlace]
      rw [h.idx]
      exact htaken

end Drain

/-! ## The outer loop -/

/-- The locals are set from what was saved, or from a new message. -/
def drainStart (t : Transfer) : Drain :=
  ⟨t.tick, if t.dev.statusRead then t.dev.rxBufLen else (t.dev.msg t.dev.msgReadIdx).len,
    if t.dev.statusRead then t.dev.rxBuf else ⟨t.dev.msgReadIdx, 0⟩⟩

theorem readRound_eq (t : Transfer) :
    t.readRound = (Drain.run t.tick.hw.rxFifo.length t.drainStart).finish := rfl

/-- The FIFO is drained from the message that is being read. -/
theorem drainStart_inv (h : t.Live msgs s) (hrecv : RecvAt msgs t.readPlace t.hw.taken) :
    t.drainStart.Inv msgs s t t.dev.msgReadIdx := by
  cases hbusy : t.dev.statusRead
  · have hlen : t.drainStart.len = (msgAt msgs t.dev.msgReadIdx).len := by
      rw [← h.len]
      simp [drainStart, hbusy]
    have hbuf : t.drainStart.buf = ⟨t.dev.msgReadIdx, 0⟩ := by simp [drainStart, hbusy]
    refine ⟨h.tick, Reads.tick t, rfl, hlen.le, ?_, ?_⟩
    · rw [hbuf, hlen, Nat.sub_self]
    · rw [hlen, Nat.sub_self]
      exact (congrArg List.length (tick_taken t)).trans (hrecv.between hbusy)
  · obtain ⟨-, -, hle, hbuf, htaken⟩ := hrecv.within hbusy
    have hlen : t.drainStart.len = t.dev.rxBufLen := by simp [drainStart, hbusy]
    have hbuf' : t.drainStart.buf = t.dev.rxBuf := by simp [drainStart, hbusy]
    refine ⟨h.tick, Reads.tick t, rfl, hlen.le.trans hle, ?_, ?_⟩
    · rw [hbuf', hlen]
      exact hbuf
    · rw [hlen]
      exact (congrArg List.length (tick_taken t)).trans htaken

/-- **One round of the outer loop.**  It is left in the middle of a message, or a message is
full. -/
theorem readRound_recv (hp : Plain msgs) (h : t.Live msgs s)
    (hrecv : RecvAt msgs t.readPlace t.hw.taken)
    (hi : t.dev.msgReadIdx < msgs.length) (hrd : (msgAt msgs t.dev.msgReadIdx).rd = true) :
    (t.readRound.1.Live msgs s ∧ RecvAt msgs t.readRound.1.readPlace t.readRound.1.hw.taken ∧
      Reads t t.readRound.1) ∧
      (t.readRound.2 = true → t.readRound.1.dev.msgReadIdx = t.dev.msgReadIdx + 1) ∧
      (t.readRound.2 = false → t.readRound.1.dev.statusRead = true) := by
  rw [readRound_eq]
  exact ((drainStart_inv h hrecv).run hp hi hrd _ fun _ => Nat.le_refl _).finish hi hrd

/-- **`i2c_dw_read`** fills the buffers, and leaves off in a message or after the last one. -/
theorem readLoop_recv (hp : Plain msgs) (n : Nat) {t : Transfer} (h : t.Live msgs s)
    (hrecv : RecvAt msgs t.readPlace t.hw.taken) :
    ((readLoop n t).Live msgs s ∧ RecvAt msgs (readLoop n t).readPlace (readLoop n t).hw.taken ∧
      Reads t (readLoop n t)) ∧
      (msgs.length ≤ t.dev.msgReadIdx + n →
        (readLoop n t).dev.statusRead = true ∨ (readLoop n t).dev.msgReadIdx = msgs.length) := by
  induction n generalizing t with
  | zero =>
    refine ⟨⟨h, hrecv, Reads.refl t⟩, fun hle => Or.inr ?_⟩
    have : t.dev.msgReadIdx ≤ msgs.length := hrecv.idx_le
    show t.dev.msgReadIdx = _
    omega
  | succ n ih =>
    rw [readLoop]
    by_cases hi : t.dev.msgReadIdx < t.dev.msgs.length
    · rw [if_pos hi]
      rw [h.length] at hi
      cases hrd : (msgAt msgs t.dev.msgReadIdx).rd
      · -- A message that is written is passed over.
        have hidle : t.dev.statusRead = false := by
          cases hbusy : t.dev.statusRead
          · rfl
          · have := (hrecv.within hbusy).2.1
            rw [show t.readPlace.idx = t.dev.msgReadIdx from rfl, hrd] at this
            cases this
        have hnot : ¬ (t.dev.msg t.dev.msgReadIdx).rd = true := by
          rw [h.rd, hrd]
          simp
        rw [if_neg hnot]
        have hskip : ∀ t' : Transfer,
            t' = { t with dev := { t.dev with msgReadIdx := t.dev.msgReadIdx + 1 } } →
            (t'.Live msgs s ∧ RecvAt msgs t'.readPlace t'.hw.taken ∧ Reads t t') := by
          rintro _ rfl
          refine ⟨h.of_dev rfl rfl ⟨rfl, rfl⟩ rfl,
            ⟨hi, fun _ => ?_, fun hbusy => ?_⟩, ⟨rfl, rfl, rfl, rfl, rfl, rfl, rfl, rfl, rfl⟩⟩
          · show t.hw.taken.length = readLenBefore msgs (t.dev.msgReadIdx + 1)
            rw [readLenBefore, hrd, if_neg (by simp), Nat.add_zero]
            exact hrecv.between hidle
          · rw [show Transfer.readPlace _ = _ from rfl] at hbusy
            exact absurd hbusy (by simp [readPlace, hidle])
        obtain ⟨hlive', hrecv', hreads'⟩ := hskip _ rfl
        obtain ⟨⟨hl, hr, hf⟩, hexit⟩ := ih hlive' hrecv'
        refine ⟨⟨hl, hr, hreads'.trans hf⟩, fun hle => hexit ?_⟩
        show msgs.length ≤ t.dev.msgReadIdx + 1 + n
        omega
      · rw [if_pos (by rw [h.rd, hrd])]
        obtain ⟨⟨hlive', hrecv', hreads'⟩, hmore, hleft⟩ := readRound_recv hp h hrecv hi hrd
        by_cases hround : t.readRound.2 = true
        · rw [if_pos hround]
          obtain ⟨⟨hl, hr, hf⟩, hexit⟩ := ih hlive' hrecv'
          refine ⟨⟨hl, hr, hreads'.trans hf⟩, fun hle => hexit ?_⟩
          rw [hmore hround]
          omega
        · rw [if_neg hround]
          exact ⟨⟨hlive', hrecv', hreads'⟩, fun _ => Or.inl (hleft (by simpa using hround))⟩
    · rw [if_neg hi]
      refine ⟨⟨h, hrecv, Reads.refl t⟩, fun _ => Or.inr ?_⟩
      have : t.dev.msgReadIdx ≤ msgs.length := hrecv.idx_le
      rw [h.length] at hi
      omega

end Transfer
end RealtekIpcam.I2c
