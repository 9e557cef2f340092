import RealtekIpcam.I2c.FifoLedger
import RealtekIpcam.I2c.Messages

/-!
# The driver writes its commands

`i2c_dw_xfer_msg` writes commands as long as the FIFOs have room, and saves where it is.  What
it has written is a prefix of the stream, as far as a view `f` of the commands shows: the view
that is blind to the restart bit shows a prefix always, and the one that shows everything does
when every message is begun with room for its first command.

The local `need_restart` is what makes the difference.  It is set when a message is begun and is not
saved when the FIFO is full right there.
-/

namespace RealtekIpcam.I2c

variable {msgs : List I2cMsg} {f : Word → Word} {s : Prop}

/-- A view of the commands that shows their kind and their stop bit. -/
structure View (f : Word → Word) : Prop where
  isRead_eq : ∀ a b, f a = f b → isRead a = isRead b
  isStop_eq : ∀ a b, f a = f b → isStop a = isStop b

/-- The view does not show the restart bit. -/
def Blind (f : Word → Word) : Prop := ∀ cmd, f (cmd ||| 0x400) = f cmd

theorem View.countP_eq (hv : View f) {as bs : List Word} (h : as.map f = bs.map f) :
    as.countP isRead = bs.countP isRead := by
  induction as generalizing bs with
  | nil =>
    rw [List.map_nil, eq_comm, List.map_eq_nil_iff] at h
    rw [h]
  | cons a as ih =>
    cases bs with
    | nil => cases h
    | cons b bs =>
      rw [List.map_cons, List.map_cons, List.cons.injEq] at h
      rw [List.countP_cons, List.countP_cons, ih h.2, hv.isRead_eq a b h.1]

theorem View.noStop (hv : View f) {as bs : List Word} (h : as.map f = bs.map f)
    (hbs : ∀ cmd ∈ bs, isStop cmd = false) : ∀ cmd ∈ as, isStop cmd = false := by
  intro a ha
  have hmem : f a ∈ bs.map f := h ▸ List.mem_map_of_mem ha
  obtain ⟨b, hb, hab⟩ := List.mem_map.mp hmem
  rw [hv.isStop_eq a b hab.symm]
  exact hbs b hb

namespace Transfer

variable {t : Transfer}

/-! ## The transfer between two accesses -/

/-- The driver and the controller agree on the messages, on the bytes that were taken, and on
what is outstanding; the controller is alive, or its abort is still to be seen.  `s` says that
the stop is known to be over. -/
structure Live (msgs : List I2cMsg) (s : Prop) (t : Transfer) : Prop where
  length : t.dev.msgs.length = msgs.length
  msg : ∀ i, t.dev.msg i = filled msgs t.hw.taken i
  txDepth : t.dev.txFifoDepth = t.hw.conf.txDepth
  rxDepth : t.dev.rxFifoDepth = t.hw.conf.rxDepth
  sound : t.hw.Sound t.dev.rxOutstanding
  phase : t.hw.Alive ∨ t.hw.txAbrt = true
  stopped : s → t.hw.stopped = true
  stopsAtEnd : t.hw.StopsAtEnd

theorem Live.of_dev {t' : Transfer} (h : t.Live msgs s) (hhw : t'.hw = t.hw)
    (hmsgs : t'.dev.msgs = t.dev.msgs)
    (hdepth : t'.dev.txFifoDepth = t.dev.txFifoDepth ∧ t'.dev.rxFifoDepth = t.dev.rxFifoDepth)
    (hout : t'.dev.rxOutstanding = t.dev.rxOutstanding) : t'.Live msgs s := by
  have hmsg : ∀ i, t'.dev.msg i = t.dev.msg i := by
    intro i
    rw [DwI2cDev.msg, hmsgs]
    rfl
  refine ⟨?_, ?_, ?_, ?_, ?_, ?_, ?_, ?_⟩
  · rw [hmsgs]
    exact h.length
  · intro i
    rw [hmsg, hhw]
    exact h.msg i
  · rw [hdepth.1, hhw]
    exact h.txDepth
  · rw [hdepth.2, hhw]
    exact h.rxDepth
  · rw [hout, hhw]
    exact h.sound
  · rw [hhw]
    exact h.phase
  · rw [hhw]
    exact h.stopped
  · rw [hhw]
    exact h.stopsAtEnd

theorem foldl_step {P : I2cHw → Prop} (hstep : ∀ hw e, P hw → P (hw.step e)) (es : List HwEvent)
    {hw : I2cHw} (h : P hw) : P (es.foldl I2cHw.step hw) := by
  induction es generalizing hw with
  | nil => exact h
  | cons e es ih => exact ih (hstep hw e h)

@[simp] theorem tick_dev (t : Transfer) : t.tick.dev = t.dev := rfl

theorem tick_frame (t : Transfer) :
    t.tick.hw.written = t.hw.written ∧ t.tick.hw.taken = t.hw.taken ∧ t.tick.hw.conf = t.hw.conf ∧
      t.tick.hw.intrMask = t.hw.intrMask :=
  foldl_step (P := fun hw => hw.written = t.hw.written ∧ hw.taken = t.hw.taken ∧
      hw.conf = t.hw.conf ∧ hw.intrMask = t.hw.intrMask)
    (fun hw e h => by simpa using h) _ ⟨rfl, rfl, rfl, rfl⟩

@[simp] theorem tick_written (t : Transfer) : t.tick.hw.written = t.hw.written := (tick_frame t).1

@[simp] theorem tick_taken (t : Transfer) : t.tick.hw.taken = t.hw.taken := (tick_frame t).2.1

@[simp] theorem tick_conf (t : Transfer) : t.tick.hw.conf = t.hw.conf := (tick_frame t).2.2.1

@[simp] theorem tick_intrMask (t : Transfer) : t.tick.hw.intrMask = t.hw.intrMask :=
  (tick_frame t).2.2.2

theorem tick_txFifo_le (t : Transfer) : t.tick.hw.txFifo.length ≤ t.hw.txFifo.length :=
  foldl_step (P := fun hw => hw.txFifo.length ≤ t.hw.txFifo.length)
    (fun hw e h => (hw.step_levels e).1.trans h) _ (Nat.le_refl _)

theorem tick_rxFifo_le (t : Transfer) (habrt : t.tick.hw.txAbrt = false) :
    t.hw.txAbrt = false ∧ t.hw.rxFifo.length ≤ t.tick.hw.rxFifo.length :=
  foldl_step (P := fun hw => hw.txAbrt = false →
      t.hw.txAbrt = false ∧ t.hw.rxFifo.length ≤ hw.rxFifo.length)
    (fun hw e h habrt => by
      obtain ⟨hbefore, hle⟩ := (hw.step_levels e).2 habrt
      exact ⟨(h hbefore).1, (h hbefore).2.trans hle⟩)
    _ (fun h => ⟨h, Nat.le_refl _⟩) habrt

theorem Live.tick (h : t.Live msgs s) : t.tick.Live msgs s := by
  have hhw := foldl_step (P := fun hw => hw.Sound t.dev.rxOutstanding ∧
      (hw.Alive ∨ hw.txAbrt = true) ∧ (s → hw.stopped = true) ∧ hw.StopsAtEnd)
    (fun hw e h => ⟨h.1.step e, h.1.step_alive h.2.1 e,
      fun hs => h.1.step_stopped (h.2.2.1 hs) e, h.2.2.2.step e⟩)
    (t.sched.headD []) ⟨h.sound, h.phase, h.stopped, h.stopsAtEnd⟩
  exact ⟨h.length, by simpa using h.msg, by simpa using h.txDepth, by simpa using h.rxDepth, hhw.1,
    hhw.2.1, hhw.2.2.1, hhw.2.2.2⟩

theorem Live.write (h : t.Live msgs s) {cmd : Word}
    (hroom : t.hw.txAbrt = false → t.hw.txFifo.length < t.hw.conf.txDepth)
    (hread : isRead cmd = true → t.dev.rxOutstanding < t.dev.rxFifoDepth)
    (hstop : ∀ c ∈ t.hw.written, isStop c = false) {t' : Transfer}
    (hhw : t'.hw = (t.writeDataCmd cmd).hw)
    (hdev : t'.dev = { t.dev with
      rxOutstanding := t.dev.rxOutstanding + if isRead cmd then 1 else 0 }) :
    t'.Live msgs s := by
  have htick := h.tick
  have hle := tick_txFifo_le t
  have hroom' : t.tick.hw.txAbrt = false → t.tick.hw.txFifo.length < t.tick.hw.conf.txDepth := by
    intro habrt
    have hlt := hroom (tick_rxFifo_le t habrt).1
    rw [tick_conf]
    omega
  have hread' : isRead cmd = true → t.dev.rxOutstanding < t.tick.hw.conf.rxDepth := by
    intro hcmd
    rw [tick_conf, ← h.rxDepth]
    exact hread hcmd
  obtain ⟨hsound, hphase⟩ :=
    htick.sound.writeDataCmd htick.phase hroom' hread' (by simpa using hstop)
  obtain ⟨htaken, hconf, hstopped, hdet, habrt, -⟩ := t.tick.hw.writeDataCmd_frame cmd
  refine ⟨?_, ?_, ?_, ?_, ?_, ?_, ?_, ?_⟩
  · rw [hdev]
    exact h.length
  · intro i
    rw [hdev, hhw, show (t.writeDataCmd cmd).hw.taken = t.hw.taken from htaken.trans (tick_taken t)]
    exact h.msg i
  · rw [hdev, hhw, show (t.writeDataCmd cmd).hw.conf = t.hw.conf from hconf.trans (tick_conf t)]
    exact h.txDepth
  · rw [hdev, hhw, show (t.writeDataCmd cmd).hw.conf = t.hw.conf from hconf.trans (tick_conf t)]
    exact h.rxDepth
  · rw [hdev, hhw]
    exact hsound
  · rw [hhw]
    exact hphase
  · intro hs
    rw [hhw]
    exact hstopped.trans (htick.stopped hs)
  · rw [hhw]
    intro hhold hnone hstop
    exact hstopped.trans (htick.stopsAtEnd ((congrArg HwConf.holdMaster hconf).symm.trans hhold)
      (habrt.symm.trans hnone) (hdet.symm.trans hstop))

theorem Live.rd (h : t.Live msgs s) (i : Nat) : (t.dev.msg i).rd = (msgAt msgs i).rd := by
  rw [h.msg]
  rfl

theorem Live.len (h : t.Live msgs s) (i : Nat) : (t.dev.msg i).len = (msgAt msgs i).len := by
  rw [h.msg]
  rfl

theorem Live.recvLen (h : t.Live msgs s) (hp : Plain msgs) (i : Nat) :
    (t.dev.msg i).recvLen = false := by
  rw [h.msg]
  exact hp.recvLen i

theorem Live.load (h : t.Live msgs s) {i : Nat} (hrd : (msgAt msgs i).rd = false) (j : Nat) :
    t.dev.load ⟨i, j⟩ = (msgAt msgs i).buf j := by
  rw [DwI2cDev.load, h.msg]
  simp [filled, hrd]

/-! ## The inner loop -/

namespace Pump

/-- The inner loop in message `i`.  A view that shows the restart bit needs `need_restart` to
be right, and room for the first command. -/
structure Inv (f : Word → Word) (msgs : List I2cMsg) (s : Prop) (i : Nat) (p : Pump) : Prop where
  live : p.t.Live msgs s
  idx : p.t.dev.msgWriteIdx = i
  bufLen : p.bufLen ≤ (msgAt msgs i).len
  written : p.t.hw.written.map f = (streamUpTo msgs i ((msgAt msgs i).len - p.bufLen)).map f
  buf : (msgAt msgs i).rd = false → p.buf = ⟨i, (msgAt msgs i).len - p.bufLen⟩
  txLimit : p.t.hw.txAbrt = false → p.txLimit ≤ p.t.hw.conf.txDepth - p.t.hw.txFifo.length
  restart : Blind f ∨ (p.needRestart = decide (0 < i ∧ p.bufLen = (msgAt msgs i).len) ∧
    (0 < i → p.bufLen = (msgAt msgs i).len → 0 < p.txLimit ∧ 0 < p.rxLimit ∧
      ((msgAt msgs i).rd = true → p.t.dev.rxOutstanding < p.t.dev.rxFifoDepth)))

variable {p : Pump} {i : Nat}

theorem Inv.cmd_eq (h : p.Inv f msgs s i) (hp : Plain msgs) (hpos : 0 < p.bufLen) :
    p.cmd = if p.needRestart then stopBit msgs i ((msgAt msgs i).len - p.bufLen) ||| 0x400
      else stopBit msgs i ((msgAt msgs i).len - p.bufLen) := by
  have hle := h.bufLen
  have hcond : (p.t.dev.msgWriteIdx + 1 = p.t.dev.msgs.length ∧ p.bufLen = 1 ∧
      ¬ (p.t.dev.msg p.t.dev.msgWriteIdx).recvLen) ↔
        (i + 1 = msgs.length ∧ (msgAt msgs i).len - p.bufLen + 1 = (msgAt msgs i).len) := by
    rw [h.live.recvLen hp, h.idx, h.live.length]
    constructor
    · rintro ⟨hi, hone, -⟩
      exact ⟨hi, by omega⟩
    · rintro ⟨hi, hone⟩
      exact ⟨hi, by omega, by simp⟩
  simp only [cmd, stopBit]
  rw [if_congr hcond rfl rfl]

theorem Inv.view_cmd (h : p.Inv f msgs s i) (hp : Plain msgs) (hpos : 0 < p.bufLen) :
    f (p.cmd ||| dataBits msgs i ((msgAt msgs i).len - p.bufLen)) =
      f (commandOf msgs i ((msgAt msgs i).len - p.bufLen)) := by
  have hle := h.bufLen
  have hfirst : (0 < i ∧ (msgAt msgs i).len - p.bufLen = 0) ↔
      (0 < i ∧ p.bufLen = (msgAt msgs i).len) := by omega
  rw [h.cmd_eq hp hpos, commandOf]
  rcases h.restart with hblind | ⟨hrestart, -⟩
  · -- The restart bit, set or not, is not seen.
    have hor : ∀ a b : Word, f ((a ||| 0x400) ||| b) = f (a ||| b) := by
      intro a b
      rw [BitVec.or_assoc, BitVec.or_comm 0x400 b, ← BitVec.or_assoc, hblind]
    split <;> split <;> simp only [hor]
  · rw [if_congr hfirst rfl rfl, hrestart]
    simp only [decide_eq_true_eq]

/-- One command is written. -/
theorem Inv.next (hp : Plain msgs) (hv : View f) (h : p.Inv f msgs s i) (hi : i < msgs.length)
    (hpos : 0 < p.bufLen) (htx : 0 < p.txLimit)
    (hread : (msgAt msgs i).rd = true → p.t.dev.rxOutstanding < p.t.dev.rxFifoDepth) {p' : Pump}
    (hhw : p'.t.hw =
      (p.t.writeDataCmd (p.cmd ||| dataBits msgs i ((msgAt msgs i).len - p.bufLen))).hw)
    (hdev : p'.t.dev = { p.t.dev with
      rxOutstanding := p.t.dev.rxOutstanding + if (msgAt msgs i).rd then 1 else 0 })
    (hbuf : (msgAt msgs i).rd = false → p'.buf = p.buf.succ) (hlen : p'.bufLen = p.bufLen - 1)
    (hrestart : p'.needRestart = false) (hlimit : p'.txLimit = p.txLimit - 1) :
    p'.Inv f msgs s i := by
  have hle := h.bufLen
  have hsucc : (msgAt msgs i).len - p'.bufLen = (msgAt msgs i).len - p.bufLen + 1 := by omega
  have hview := h.view_cmd hp hpos
  -- The bits of the command that the ledger looks at are those of the stream.
  have hkind : isRead (p.cmd ||| dataBits msgs i ((msgAt msgs i).len - p.bufLen)) =
      (msgAt msgs i).rd := by
    rw [hv.isRead_eq _ _ hview, commandOf_isRead]
  have hnostop : ∀ c ∈ p.t.hw.written, isStop c = false :=
    hv.noStop h.written (noStop_streamUpTo hi (by omega))
  have hroom : p.t.hw.txAbrt = false → p.t.hw.txFifo.length < p.t.hw.conf.txDepth := by
    intro habrt
    have := h.txLimit habrt
    omega
  obtain ⟨-, hconf, -, -, habrt', hgrow⟩ := p.t.tick.hw.writeDataCmd_frame
    (p.cmd ||| dataBits msgs i ((msgAt msgs i).len - p.bufLen))
  refine ⟨?_, ?_, by omega, ?_, ?_, ?_, Or.inr ⟨?_, ?_⟩⟩
  · exact h.live.write hroom (by rw [hkind]; exact hread) hnostop hhw (by rw [hkind]; exact hdev)
  · rw [hdev]
    exact h.idx
  · rw [hhw, hsucc, streamUpTo_succ, List.map_append, List.map_cons, List.map_nil, ← hview,
      ← h.written]
    simp [Transfer.writeDataCmd]
  · intro hrd
    rw [hbuf hrd, h.buf hrd, hsucc]
    rfl
  · intro habrt
    rw [hhw] at habrt ⊢
    have hbefore := h.txLimit (tick_rxFifo_le p.t (habrt'.symm.trans habrt)).1
    have hdrain := tick_txFifo_le p.t
    rw [show (p.t.writeDataCmd _).hw.conf = p.t.hw.conf from hconf.trans (tick_conf p.t), hlimit]
    have hgrow' : (p.t.writeDataCmd (p.cmd ||| dataBits msgs i
        ((msgAt msgs i).len - p.bufLen))).hw.txFifo.length ≤ p.t.tick.hw.txFifo.length + 1 := hgrow
    omega
  · rw [hrestart, eq_comm, decide_eq_false_iff_not]
    omega
  · omega

/-- **One round of the inner loop.**  When a message is begun it takes the first command. -/
theorem Inv.round (hp : Plain msgs) (hv : View f) (h : p.Inv f msgs s i) (hi : i < msgs.length) :
    p.round.1.Inv f msgs s i ∧ p.round.1.bufLen ≤ p.bufLen ∧
      (Blind f ∨ (0 < i → p.round.1.bufLen < (msgAt msgs i).len)) := by
  have hle := h.bufLen
  have hlenPos := hp.len_pos hi
  have hrd := h.live.rd i
  rw [← h.idx] at hrd
  simp only [Pump.round]
  by_cases hgo : p.bufLen > 0 ∧ p.txLimit > 0 ∧ p.rxLimit > 0
  · rw [if_pos hgo]
    cases hrdi : (msgAt msgs i).rd
    · have hnot : ¬ (p.t.dev.msg p.t.dev.msgWriteIdx).rd = true := by
        rw [hrd, h.idx, hrdi]
        simp
      rw [if_neg hnot]
      have hdata : (p.t.dev.load p.buf).setWidth 32 =
          dataBits msgs i ((msgAt msgs i).len - p.bufLen) := by
        rw [h.buf hrdi, h.live.load hrdi, dataBits, hrdi]
        rfl
      refine ⟨h.next hp hv hi hgo.1 hgo.2.1 (by simp [hrdi]) ?_ ?_ (fun _ => rfl) rfl rfl rfl,
        Nat.sub_le _ _, Or.inr fun _ => ?_⟩
      · rw [← hdata]
      · rw [hrdi]
        simp [Transfer.writeDataCmd]
      · show p.bufLen - 1 < _
        omega
    · have hyes : (p.t.dev.msg p.t.dev.msgWriteIdx).rd = true := by rw [hrd, h.idx, hrdi]
      rw [if_pos hyes]
      by_cases hfull : p.t.dev.rxOutstanding ≥ p.t.dev.rxFifoDepth
      · -- No room for another byte: had the message just been begun, there would be.
        rw [if_pos hfull]
        have hnot : ¬ (0 < i ∧ p.bufLen = (msgAt msgs i).len) ∨ Blind f := by
          rcases h.restart with hblind | ⟨-, hroom⟩
          · exact Or.inr hblind
          · refine Or.inl fun ⟨hi0, hfirst⟩ => ?_
            have := (hroom hi0 hfirst).2.2 hrdi
            omega
        refine ⟨⟨h.live, h.idx, h.bufLen, h.written, h.buf, h.txLimit, ?_⟩, Nat.le_refl _, ?_⟩
        · rcases hnot with hnot | hblind
          · refine Or.inr ⟨by simp [hnot], fun hi0 hfirst => absurd ⟨hi0, hfirst⟩ hnot⟩
          · exact Or.inl hblind
        · rcases hnot with hnot | hblind
          · refine Or.inr fun hi0 => ?_
            show p.bufLen < _
            omega
          · exact Or.inl hblind
      · rw [if_neg hfull]
        have hdata : (0x100 : Word) = dataBits msgs i ((msgAt msgs i).len - p.bufLen) := by
          rw [dataBits, hrdi]
          rfl
        refine ⟨h.next hp hv hi hgo.1 hgo.2.1 (fun _ => by omega) ?_ ?_ (by simp [hrdi])
          rfl rfl rfl, Nat.sub_le _ _, Or.inr fun _ => ?_⟩
        · rw [← hdata]
        · rw [hrdi]
          rfl
        · show p.bufLen - 1 < _
          omega
  · rw [if_neg hgo]
    refine ⟨h, Nat.le_refl _, ?_⟩
    rcases h.restart with hblind | ⟨-, hroom⟩
    · exact Or.inl hblind
    · refine Or.inr fun hi0 => ?_
      by_contra hge
      have hfirst : p.bufLen = (msgAt msgs i).len := by
        have : (p, false).1.bufLen = p.bufLen := rfl
        omega
      obtain ⟨htx, hrx, -⟩ := hroom hi0 hfirst
      exact hgo ⟨by omega, htx, hrx⟩

theorem Inv.run (hp : Plain msgs) (hv : View f) (hi : i < msgs.length) (n : Nat) {p : Pump}
    (h : p.Inv f msgs s i) : (p.run n).Inv f msgs s i ∧ (p.run n).bufLen ≤ p.bufLen := by
  induction n generalizing p with
  | zero => exact ⟨h, Nat.le_refl _⟩
  | succ n ih =>
    obtain ⟨hround, hle, -⟩ := h.round hp hv hi
    rw [Pump.run]
    split
    · exact ⟨(ih hround).1, (ih hround).2.trans hle⟩
    · exact ⟨hround, hle⟩

theorem Inv.run_begun (hp : Plain msgs) (hv : View f) (hi : i < msgs.length) {p : Pump}
    (h : p.Inv f msgs s i) :
    Blind f ∨ (0 < i → (p.run p.bufLen).bufLen < (msgAt msgs i).len) := by
  have hlenPos := hp.len_pos hi
  cases hn : p.bufLen with
  | zero =>
    refine Or.inr fun _ => ?_
    show p.bufLen < _
    omega
  | succ n =>
    obtain ⟨hround, -, hbegun⟩ := h.round hp hv hi
    rw [Pump.run]
    split
    · refine hbegun.imp_right fun hlt hi0 => ?_
      exact (hround.run hp hv hi n).2.trans_lt (hlt hi0)
    · exact hbegun

end Pump

/-! ## What writing leaves alone -/

/-- Where the reading is. -/
structure ReadPlace where
  idx : Nat
  busy : Bool
  buf : BufPtr
  bufLen : Nat

/-- `msg_read_idx`, `STATUS_READ_IN_PROGRESS`, `rx_buf` and `rx_buf_len`. -/
def readPlace (t : Transfer) : ReadPlace :=
  ⟨t.dev.msgReadIdx, t.dev.statusRead, t.dev.rxBuf, t.dev.rxBufLen⟩

/-- Writing commands changes nothing that the reading uses, and only adds to what was written. -/
structure Writes (t t' : Transfer) : Prop where
  readPlace : t'.readPlace = t.readPlace
  taken : t'.hw.taken = t.hw.taken
  conf : t'.hw.conf = t.hw.conf
  cmdErr : t'.dev.cmdErr = t.dev.cmdErr
  restartEn : t'.dev.restartEn = t.dev.restartEn
  completed : t'.completed = t.completed
  atStop : t'.atStop = t.atStop
  msgErr : t'.dev.msgErr = t.dev.msgErr ∨ t'.dev.msgErr = -EINVAL
  written : t.hw.written <+: t'.hw.written

theorem Writes.refl (t : Transfer) : Writes t t :=
  ⟨rfl, rfl, rfl, rfl, rfl, rfl, rfl, Or.inl rfl, List.prefix_rfl⟩

theorem Writes.trans {t u v : Transfer} (h : Writes t u) (h' : Writes u v) : Writes t v :=
  ⟨h'.readPlace.trans h.readPlace, h'.taken.trans h.taken, h'.conf.trans h.conf,
    h'.cmdErr.trans h.cmdErr, h'.restartEn.trans h.restartEn, h'.completed.trans h.completed,
    h'.atStop.trans h.atStop,
    h'.msgErr.elim (fun heq => h.msgErr.imp heq.trans heq.trans) Or.inr, h.written.trans h'.written⟩

theorem Writes.tick (t : Transfer) : Writes t t.tick :=
  ⟨rfl, tick_taken t, tick_conf t, rfl, rfl, rfl, rfl, Or.inl rfl, by rw [tick_written]⟩

theorem Writes.writeDataCmd (t : Transfer) (cmd : Word) : Writes t (t.writeDataCmd cmd) :=
  ⟨rfl, (t.tick.hw.writeDataCmd_frame cmd).1.trans (tick_taken t),
    (t.tick.hw.writeDataCmd_frame cmd).2.1.trans (tick_conf t), rfl, rfl, rfl, rfl,
    Or.inl rfl, by simp [Transfer.writeDataCmd]⟩

theorem Pump.round_writes (p : Pump) : Writes p.t p.round.1.t := by
  simp only [Pump.round]
  split
  · split
    · split
      · exact Writes.refl p.t
      · have h := Writes.writeDataCmd p.t (p.cmd ||| 0x100)
        exact ⟨h.readPlace, h.taken, h.conf, h.cmdErr, h.restartEn, h.completed, h.atStop, h.msgErr,
          h.written⟩
    · exact Writes.writeDataCmd _ _
  · exact Writes.refl p.t

theorem Pump.run_writes (n : Nat) (p : Pump) : Writes p.t (p.run n).t := by
  induction n generalizing p with
  | zero => exact Writes.refl p.t
  | succ n ih =>
    rw [Pump.run]
    split
    · exact p.round_writes.trans (ih _)
    · exact p.round_writes

theorem XferLoop.begin_t (l : XferLoop) : l.begin.t = l.t := by
  simp only [XferLoop.begin]
  split <;> rfl

theorem XferLoop.limits_writes (l : XferLoop) : Writes l.t l.begin.limits.t := by
  have h := (Writes.tick l.t).trans (Writes.tick l.t.tick)
  rw [← l.begin_t] at h ⊢
  exact h

theorem XferLoop.round_writes (l : XferLoop) : Writes l.t l.round.1.t := by
  have h := l.limits_writes.trans (Pump.run_writes l.begin.limits.bufLen l.begin.limits)
  simp only [XferLoop.round]
  split <;>
    exact ⟨h.readPlace, h.taken, h.conf, h.cmdErr, h.restartEn, h.completed, h.atStop, h.msgErr,
      h.written⟩

theorem XferLoop.run_writes (addr n : Nat) (l : XferLoop) : Writes l.t (l.run addr n).t := by
  induction n generalizing l with
  | zero => exact Writes.refl l.t
  | succ n ih =>
    rw [XferLoop.run]
    split
    · split
      · have h := Writes.refl l.t
        exact ⟨h.readPlace, h.taken, h.conf, h.cmdErr, h.restartEn, h.completed, h.atStop,
          Or.inr rfl, h.written⟩
      · split
        · exact l.round_writes.trans (ih _)
        · exact l.round_writes
    · exact Writes.refl l.t

theorem i2cDwXferMsg_writes (t : Transfer) : Writes t t.i2cDwXferMsg := by
  have h := XferLoop.run_writes (t.dev.msg t.dev.msgWriteIdx).addr t.dev.msgs.length
    ⟨t, t.dev.txBuf, t.dev.txBufLen, false⟩
  have h' := h.trans (Writes.tick _)
  exact ⟨h'.readPlace, h'.taken, h'.conf, h'.cmdErr, h'.restartEn, h'.completed, h'.atStop,
    h'.msgErr, h'.written⟩

/-! ## The outer loop -/

/-- Where the writing is. -/
structure WritePlace where
  idx : Nat
  busy : Bool
  buf : BufPtr
  bufLen : Nat

/-- `msg_write_idx`, `STATUS_WRITE_IN_PROGRESS`, `tx_buf` and `tx_buf_len`. -/
def writePlace (t : Transfer) : WritePlace :=
  ⟨t.dev.msgWriteIdx, t.dev.statusWrite, t.dev.txBuf, t.dev.txBufLen⟩

/-- In the middle of a message, which is not at its first byte when the restart bit shows. -/
structure Within (f : Word → Word) (msgs : List I2cMsg) (place : WritePlace) (written : List Word) :
    Prop where
  lt : place.idx < msgs.length
  pos : 0 < place.bufLen
  bufLen : place.bufLen ≤ (msgAt msgs place.idx).len
  written : written.map f =
    (streamUpTo msgs place.idx ((msgAt msgs place.idx).len - place.bufLen)).map f
  buf : (msgAt msgs place.idx).rd = false →
    place.buf = ⟨place.idx, (msgAt msgs place.idx).len - place.bufLen⟩
  begun : Blind f ∨ (0 < place.idx → place.bufLen < (msgAt msgs place.idx).len)

/-- What was written is what comes before the place. -/
structure SentAt (f : Word → Word) (msgs : List I2cMsg) (place : WritePlace) (written : List Word) :
    Prop where
  idx_le : place.idx ≤ msgs.length
  between : place.busy = false → written.map f = (streamBefore msgs place.idx).map f
  within : place.busy = true → Within f msgs place written

/-- What was written is a prefix of the stream, to the view, and all of it when no message is
left. -/
theorem SentAt.view_prefix {place : WritePlace} {written : List Word}
    (h : SentAt f msgs place written) :
    written.map f <+: (commandStream msgs).map f ∧
      (place.idx = msgs.length → written.map f = (commandStream msgs).map f) := by
  cases hbusy : place.busy
  · rw [h.between hbusy]
    refine ⟨(streamBefore_mono h.idx_le).map f, fun hidx => ?_⟩
    rw [hidx, commandStream]
  · have hw := h.within hbusy
    rw [hw.written]
    refine ⟨(streamUpTo_le_stream hw.lt (Nat.sub_le _ _)).map f, fun hidx => ?_⟩
    have := hw.lt
    omega

theorem SentAt.idx_eq (hp : Plain msgs) (hv : View f) {place : WritePlace} {written : List Word}
    (h : SentAt f msgs place written) (hstop : ∃ cmd ∈ written, isStop cmd = true) :
    place.idx = msgs.length ∧ written.map f = (commandStream msgs).map f := by
  obtain ⟨cmd, hmem, hcmd⟩ := hstop
  have hidx : place.idx = msgs.length := by
    by_contra hne
    have hlt : place.idx < msgs.length := by
      have := h.idx_le
      omega
    have hnone : ∀ c ∈ written, isStop c = false := by
      cases hbusy : place.busy
      · refine hv.noStop (h.between hbusy) ?_
        rw [← streamUpTo_zero]
        exact noStop_streamUpTo hlt (hp.len_pos hlt)
      · have hw := h.within hbusy
        have hpos := hw.pos
        have hle := hw.bufLen
        exact hv.noStop hw.written (noStop_streamUpTo hlt (by omega))
    rw [hnone cmd hmem] at hcmd
    cases hcmd
  exact ⟨hidx, h.view_prefix.2 hidx⟩

namespace XferLoop

/-- A message that is begun, and is not the first, finds room for its first command. -/
def HasRoom (l : XferLoop) : Prop :=
  let dev := l.t.dev
  let p := l.begin.limits
  dev.statusWrite = false → 0 < dev.msgWriteIdx →
    0 < p.txLimit ∧ 0 < p.rxLimit ∧
      ((dev.msg dev.msgWriteIdx).rd → dev.rxOutstanding < dev.rxFifoDepth)
  deriving Decidable

/-- Every message that the outer loop begins finds room. -/
def StartsWithRoom (addr : Nat) : Nat → XferLoop → Prop
  | 0, _ => True
  | n + 1, l =>
    l.t.dev.msgWriteIdx < l.t.dev.msgs.length → (l.t.dev.msg l.t.dev.msgWriteIdx).addr = addr →
      l.HasRoom ∧ (l.round.2 = true → StartsWithRoom addr n l.round.1)

instance decidableStartsWithRoom (addr : Nat) :
    ∀ n (l : XferLoop), Decidable (l.StartsWithRoom addr n)
  | 0, _ => isTrue trivial
  | n + 1, l =>
    have := decidableStartsWithRoom addr n l.round.1
    inferInstanceAs (Decidable (_ → _ → _ ∧ (_ → _)))

/-- The outer loop, whose locals are what was saved. -/
structure Inv (f : Word → Word) (msgs : List I2cMsg) (s : Prop) (l : XferLoop) : Prop where
  live : l.t.Live msgs s
  sent : SentAt f msgs l.t.writePlace l.t.hw.written
  buf : l.buf = l.t.dev.txBuf
  bufLen : l.bufLen = l.t.dev.txBufLen
  restart : Blind f ∨ (l.needRestart = false ∧ l.t.dev.restartEn = true)

variable {l : XferLoop}

/-- Where the inner loop begins, only the controller has gone on, and there is room for what it may
write. -/
theorem Inv.begin_limits (h : l.Inv f msgs s) :
    l.begin.limits.t.dev = l.t.dev ∧ l.begin.limits.t.hw.written = l.t.hw.written ∧
      l.begin.limits.t.Live msgs s ∧
      (l.begin.limits.t.hw.txAbrt = false → l.begin.limits.txLimit ≤
        l.begin.limits.t.hw.conf.txDepth - l.begin.limits.t.hw.txFifo.length) := by
  have ht : l.begin.limits.t = l.t.tick.tick := by
    show l.begin.t.tick.tick = _
    rw [l.begin_t]
  refine ⟨by rw [ht, tick_dev, tick_dev], by simp [ht], ?_, fun _ => ?_⟩
  · rw [ht]
    exact h.live.tick.tick
  · have hlimit : l.begin.limits.txLimit = l.t.dev.txFifoDepth - l.t.tick.hw.txFifo.length := by
      show (l.begin.t.tick.tick.dev.txFifoDepth : Int) - l.begin.t.tick.hw.txFifo.length = _
      rw [l.begin_t]
      rfl
    have hdrain := tick_txFifo_le l.t.tick
    rw [hlimit, ht, tick_conf, tick_conf, h.live.txDepth]
    omega

theorem Inv.limits_between (h : l.Inv f msgs s) (hroom : Blind f ∨ l.HasRoom)
    (hbusy : l.t.dev.statusWrite = false) :
    l.begin.limits.Inv f msgs s l.t.dev.msgWriteIdx := by
  obtain ⟨hdev, hwritten, hlive, htx⟩ := h.begin_limits
  have hlen := h.live.len l.t.dev.msgWriteIdx
  have hbufLen : l.begin.limits.bufLen = (msgAt msgs l.t.dev.msgWriteIdx).len := by
    rw [← hlen]
    show l.begin.bufLen = _
    simp [XferLoop.begin, hbusy]
  have hbuf : l.begin.limits.buf = ⟨l.t.dev.msgWriteIdx, 0⟩ := by
    show l.begin.buf = _
    simp [XferLoop.begin, hbusy]
  have hrestart : l.begin.limits.needRestart =
      (l.needRestart || (l.t.dev.restartEn && decide (0 < l.t.dev.msgWriteIdx))) := by
    show l.begin.needRestart = _
    simp [XferLoop.begin, hbusy]
  refine ⟨hlive, by rw [hdev], by omega, ?_, ?_, htx, ?_⟩
  · rw [hwritten, hbufLen, Nat.sub_self, streamUpTo_zero]
    exact h.sent.between hbusy
  · intro _
    rw [hbuf, hbufLen, Nat.sub_self]
  · rcases h.restart with hblind | ⟨hnone, hen⟩
    · exact Or.inl hblind
    refine hroom.imp_right fun hroom => ⟨?_, fun hi0 _ => ?_⟩
    · rw [hrestart, hnone, hen, hbufLen]
      simp
    · obtain ⟨h1, h2, h3⟩ := hroom hbusy hi0
      rw [hdev, ← h.live.rd]
      exact ⟨h1, h2, h3⟩

theorem Inv.limits_within (h : l.Inv f msgs s) (hbusy : l.t.dev.statusWrite = true) :
    l.begin.limits.Inv f msgs s l.t.dev.msgWriteIdx := by
  obtain ⟨hdev, hwritten, hlive, htx⟩ := h.begin_limits
  have hbegin : l.begin = l := by simp [XferLoop.begin, hbusy]
  have hw := h.sent.within hbusy
  have hbufLen : l.begin.limits.bufLen = l.t.dev.txBufLen := by
    rw [← h.bufLen]
    show l.begin.bufLen = _
    rw [hbegin]
  have hbuf : l.begin.limits.buf = l.t.dev.txBuf := by
    rw [← h.buf]
    show l.begin.buf = _
    rw [hbegin]
  have hrestart : l.begin.limits.needRestart = l.needRestart := by
    show l.begin.needRestart = _
    rw [hbegin]
  refine ⟨hlive, by rw [hdev], ?_, ?_, ?_, htx, ?_⟩
  · rw [hbufLen]
    exact hw.bufLen
  · rw [hwritten, hbufLen]
    exact hw.written
  · intro hrd
    rw [hbuf, hbufLen]
    exact hw.buf hrd
  · rcases h.restart with hblind | ⟨hnone, -⟩
    · exact Or.inl hblind
    refine hw.begun.imp_right fun hbegun => ?_
    have hnot : ¬ (0 < l.t.dev.msgWriteIdx ∧
        l.t.dev.txBufLen = (msgAt msgs l.t.dev.msgWriteIdx).len) := by
      rintro ⟨hi0, hfirst⟩
      have hlt : l.t.dev.txBufLen < (msgAt msgs l.t.dev.msgWriteIdx).len := hbegun hi0
      omega
    rw [hrestart, hnone, hbufLen]
    exact ⟨by simp [hnot], fun hi0 hfirst => absurd ⟨hi0, hfirst⟩ hnot⟩

/-- A round begins. -/
theorem Inv.limits (h : l.Inv f msgs s) (hroom : Blind f ∨ l.HasRoom) :
    l.begin.limits.Inv f msgs s l.t.dev.msgWriteIdx := by
  cases hbusy : l.t.dev.statusWrite with
  | false => exact h.limits_between hroom hbusy
  | true => exact h.limits_within hbusy

/-- The end of a round of the outer loop. -/
def finish (p : Pump) : XferLoop × Bool :=
  let t : Transfer := { p.t with dev := { p.t.dev with txBuf := p.buf, txBufLen := p.bufLen } }
  if p.bufLen > 0 ∨ (t.dev.msg t.dev.msgWriteIdx).recvLen then
    (⟨{ t with dev := { t.dev with statusWrite := true } }, p.buf, p.bufLen, p.needRestart⟩, false)
  else
    (⟨{ t with dev := { t.dev with
        statusWrite := false
        msgWriteIdx := t.dev.msgWriteIdx + 1 } }, p.buf, p.bufLen, p.needRestart⟩, true)

theorem round_eq (l : XferLoop) : l.round = finish (l.begin.limits.run l.begin.limits.bufLen) := rfl

/-- The end of a round leaves the loop, or goes on to the next message. -/
theorem finish_inv (hp : Plain msgs) {p : Pump} {i : Nat} (hpump : p.Inv f msgs s i)
    (hi : i < msgs.length) (hbegun : Blind f ∨ (0 < i → p.bufLen < (msgAt msgs i).len))
    (hrestart : Blind f ∨ (p.needRestart = false ∧ p.t.dev.restartEn = true)) :
    (finish p).1.Inv f msgs s ∧ ((finish p).2 = true → (finish p).1.t.dev.msgWriteIdx = i + 1) ∧
      ((finish p).2 = false → (finish p).1.t.dev.statusWrite = true) := by
  have hidx := hpump.idx
  simp only [finish]
  split
  next hleft =>
    refine ⟨⟨?_, ⟨?_, ?_, ?_⟩, rfl, rfl, hrestart⟩, ?_, fun _ => rfl⟩
    · exact hpump.live.of_dev rfl rfl ⟨rfl, rfl⟩ rfl
    · show p.t.dev.msgWriteIdx ≤ _
      rw [hidx]
      exact Nat.le_of_lt hi
    · intro hbusy
      cases hbusy
    · intro _
      constructor
      · show p.t.dev.msgWriteIdx < _
        rw [hidx]
        exact hi
      · refine hleft.resolve_right ?_
        show ¬ (p.t.dev.msg _).recvLen = true
        rw [hpump.live.recvLen hp]
        simp
      all_goals simp only [writePlace, hidx]
      · exact hpump.bufLen
      · exact hpump.written
      · exact hpump.buf
      · exact hbegun
    · intro hmore
      cases hmore
  next hdone =>
    refine ⟨⟨?_, ⟨?_, ?_, ?_⟩, rfl, rfl, hrestart⟩, fun _ => ?_, ?_⟩
    · exact hpump.live.of_dev rfl rfl ⟨rfl, rfl⟩ rfl
    · show p.t.dev.msgWriteIdx + 1 ≤ _
      rw [hidx]
      exact hi
    · intro _
      show p.t.hw.written.map f = (streamBefore msgs (p.t.dev.msgWriteIdx + 1)).map f
      have hzero : p.bufLen = 0 := by omega
      rw [hidx, ← streamUpTo_len, hpump.written, hzero, Nat.sub_zero]
    · intro hbusy
      cases hbusy
    · show p.t.dev.msgWriteIdx + 1 = _
      rw [hidx]
    · intro hmore
      cases hmore

/-- **One round of the outer loop.**  It is left in the middle of a message, or a message is
done. -/
theorem Inv.round (hp : Plain msgs) (hv : View f) (h : l.Inv f msgs s)
    (hi : l.t.dev.msgWriteIdx < msgs.length) (hroom : Blind f ∨ l.HasRoom) :
    l.round.1.Inv f msgs s ∧
      (l.round.2 = true → l.round.1.t.dev.msgWriteIdx = l.t.dev.msgWriteIdx + 1) ∧
      (l.round.2 = false → l.round.1.t.dev.statusWrite = true) := by
  have hstart := h.limits hroom
  obtain ⟨hpump, -⟩ := hstart.run hp hv hi l.begin.limits.bufLen
  have hbegun := hstart.run_begun hp hv hi
  have hframe := l.limits_writes.trans (Pump.run_writes l.begin.limits.bufLen l.begin.limits)
  have hlenPos := hp.len_pos hi
  have hrestart : Blind f ∨ ((l.begin.limits.run l.begin.limits.bufLen).needRestart = false ∧
      (l.begin.limits.run l.begin.limits.bufLen).t.dev.restartEn = true) := by
    rcases hpump.restart with hblind | ⟨hneed, -⟩
    · exact Or.inl hblind
    rcases hbegun with hblind | hbegun
    · exact Or.inl hblind
    rcases h.restart with hblind | ⟨-, hen⟩
    · exact Or.inl hblind
    refine Or.inr ⟨?_, hframe.restartEn.trans hen⟩
    rw [hneed, decide_eq_false_iff_not]
    rintro ⟨hi0, hfirst⟩
    have := hbegun hi0
    omega
  rw [round_eq]
  exact finish_inv hp hpump hi hbegun hrestart

/-- **The outer loop** keeps its invariant, and leaves off in a message, after the last one,
or at one to another address. -/
theorem Inv.run (hp : Plain msgs) (hv : View f) (addr n : Nat) {l : XferLoop} (h : l.Inv f msgs s)
    (hroom : Blind f ∨ l.StartsWithRoom addr n) :
    (l.run addr n).Inv f msgs s ∧
      (msgs.length ≤ l.t.dev.msgWriteIdx + n →
        (l.run addr n).t.dev.statusWrite = true ∨ (l.run addr n).t.dev.msgWriteIdx = msgs.length ∨
          (l.run addr n).t.dev.msgErr ≠ 0) := by
  induction n generalizing l with
  | zero =>
    refine ⟨h, fun hle => Or.inr (Or.inl ?_)⟩
    have : l.t.dev.msgWriteIdx ≤ msgs.length := h.sent.idx_le
    show l.t.dev.msgWriteIdx = _
    omega
  | succ n ih =>
    rw [XferLoop.run]
    have hlen := h.live.length
    by_cases hi : l.t.dev.msgWriteIdx < l.t.dev.msgs.length
    · rw [if_pos hi]
      by_cases haddr : (l.t.dev.msg l.t.dev.msgWriteIdx).addr ≠ addr
      · rw [if_pos haddr]
        refine ⟨⟨?_, h.sent, h.buf, h.bufLen, h.restart⟩, fun _ => Or.inr (Or.inr ?_)⟩
        · exact h.live.of_dev rfl rfl ⟨rfl, rfl⟩ rfl
        · show (-EINVAL : Int) ≠ 0
          decide
      · rw [if_neg haddr]
        rw [not_not] at haddr
        have hroom' := hroom.imp_right fun hroom => hroom hi haddr
        obtain ⟨hinv, hmore, hleft⟩ := h.round hp hv (hlen ▸ hi) (hroom'.imp_right And.left)
        by_cases hround : l.round.2 = true
        · rw [if_pos hround]
          obtain ⟨hrun, hexit⟩ := ih hinv (hroom'.imp_right fun h => h.2 hround)
          refine ⟨hrun, fun hle => hexit ?_⟩
          rw [hmore hround]
          omega
        · rw [if_neg hround]
          exact ⟨hinv, fun _ => Or.inl (hleft (by simpa using hround))⟩
    · rw [if_neg hi]
      refine ⟨h, fun _ => Or.inr (Or.inl ?_)⟩
      have : l.t.dev.msgWriteIdx ≤ msgs.length := h.sent.idx_le
      omega

end XferLoop

/-- The masks that the handler leaves. -/
def MaskOk (t : Transfer) : Prop :=
  t.hw.intrMask.rxFull = t.hw.intrMask.stopDet ∧ t.hw.intrMask.txAbrt = t.hw.intrMask.stopDet ∧
    (t.dev.msgErr ≠ 0 → t.hw.intrMask = Intr.none)

theorem i2cDwXferMsg_sent (hp : Plain msgs) (hv : View f) (h : t.Live msgs s)
    (hsent : SentAt f msgs t.writePlace t.hw.written) (hen : Blind f ∨ t.dev.restartEn = true)
    (hroom : Blind f ∨ XferLoop.StartsWithRoom (t.dev.msg t.dev.msgWriteIdx).addr t.dev.msgs.length
      ⟨t, t.dev.txBuf, t.dev.txBufLen, false⟩) :
    t.i2cDwXferMsg.Live msgs s ∧
      SentAt f msgs t.i2cDwXferMsg.writePlace t.i2cDwXferMsg.hw.written ∧
      t.i2cDwXferMsg.MaskOk ∧
      (t.i2cDwXferMsg.dev.statusWrite = true ∨ t.i2cDwXferMsg.dev.msgWriteIdx = msgs.length ∨
        t.i2cDwXferMsg.dev.msgErr ≠ 0) := by
  have hinv : XferLoop.Inv f msgs s ⟨t, t.dev.txBuf, t.dev.txBufLen, false⟩ :=
    ⟨h, hsent, rfl, rfl, hen.imp_right fun hen => ⟨rfl, hen⟩⟩
  obtain ⟨hrun, hexit⟩ := hinv.run hp hv _ _ hroom
  have htick := hrun.live.tick
  refine ⟨⟨htick.length, htick.msg, htick.txDepth, htick.rxDepth, htick.sound.writeIntrMask _,
    htick.phase.imp_left (·.writeIntrMask _), htick.stopped, htick.stopsAtEnd⟩, ?_, ?_, hexit ?_⟩
  · have hw : t.i2cDwXferMsg.hw.written = (XferLoop.run (t.dev.msg t.dev.msgWriteIdx).addr
        t.dev.msgs.length ⟨t, t.dev.txBuf, t.dev.txBufLen, false⟩).t.hw.written := tick_written _
    rw [hw]
    exact hrun.sent
  · refine ⟨?_, ?_, fun herr => ?_⟩
    · simp only [i2cDwXferMsg, writeIntrMask]
      split <;> (try split) <;> rfl
    · simp only [i2cDwXferMsg, writeIntrMask]
      split <;> (try split) <;> rfl
    · exact if_pos herr
  · rw [h.length]
    exact Nat.le_add_left _ _

end Transfer
end RealtekIpcam.I2c
