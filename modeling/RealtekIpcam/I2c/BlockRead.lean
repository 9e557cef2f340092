import RealtekIpcam.I2c.BlockRuns

/-!
# Block reads

A message with `I2C_M_RECV_LEN` at the end of a transfer is a block read.  When all is quiet, it
has had its commands: one for each byte of the block, and the stop with the last.

The condition is on the length bytes.  One that `i2c_dw_read` does not accept leaves the message
waiting for a length for ever, and then no command has the stop bit.
-/

namespace RealtekIpcam.I2c

variable {msgs ms : List I2cMsg} {f : Word → Word} {s : Prop}

namespace Transfer

variable {t u : Transfer}

/-! ## The driver goes on as long as it can -/

theorem tick_of_nil (h : t.sched = []) : t.tick = t := by
  obtain ⟨dev, hw, sched, completed, atStop⟩ := t
  have hnil : sched = [] := h
  subst hnil
  rfl

/-- A run of the pump with room writes something. -/
theorem Pump.run_progress {p : Pump} (hpos : 0 < p.bufLen) (htx : 0 < p.txLimit)
    (hrx : 0 < p.rxLimit) (hout : p.t.dev.rxOutstanding < p.t.dev.rxFifoDepth) :
    p.t.hw.written.length < (p.run p.bufLen).t.hw.written.length := by
  obtain ⟨n, hn⟩ := Nat.exists_eq_succ_of_ne_zero (Nat.ne_of_gt hpos)
  have hround : p.round.2 = true ∧ p.t.hw.written.length < p.round.1.t.hw.written.length := by
    simp only [Pump.round]
    rw [if_pos ⟨hpos, htx, hrx⟩]
    split
    · rw [if_neg (Int.not_le.mpr hout)]
      exact ⟨rfl, by simp [Transfer.writeDataCmd]⟩
    · exact ⟨rfl, by simp [Transfer.writeDataCmd]⟩
  rw [hn, Pump.run, if_pos hround.1]
  exact hround.2.trans_le (Pump.run_writes n p.round.1).written.length_le

/-- The driver is in a message and has something left of it, and both FIFOs are empty. -/
structure CanWrite (t : Transfer) : Prop where
  sched : t.sched = []
  busy : t.dev.statusWrite = true
  idx : t.dev.msgWriteIdx < t.dev.msgs.length
  left : 0 < t.dev.txBufLen
  txFifo : t.hw.txFifo = []
  rxFifo : t.hw.rxFifo = []
  txDepth : 0 < t.dev.txFifoDepth
  rxDepth : 0 < t.dev.rxFifoDepth
  outstanding : t.dev.rxOutstanding = 0

theorem CanWrite.i2cDwXferMsg (h : t.CanWrite) :
    t.hw.written.length < t.i2cDwXferMsg.hw.written.length := by
  obtain ⟨n, hn⟩ := Nat.exists_eq_succ_of_ne_zero
    (Nat.ne_of_gt (Nat.zero_lt_of_lt h.idx))
  let l : XferLoop := ⟨t, t.dev.txBuf, t.dev.txBufLen, false⟩
  have hbegin : l.begin = l := by
    simp only [XferLoop.begin]
    rw [if_pos h.busy]
  have htick : t.tick = t := tick_of_nil h.sched
  have hlimits : l.begin.limits =
      ⟨t, t.dev.txBuf, t.dev.txBufLen, false, t.dev.txFifoDepth, t.dev.rxFifoDepth⟩ := by
    rw [hbegin]
    simp only [XferLoop.limits, readTxflr, readRxflr, l, htick, h.txFifo, h.rxFifo]
    simp
  have hround : t.hw.written.length < l.round.1.t.hw.written.length := by
    have hpump := Pump.run_progress (p := l.begin.limits)
    rw [hlimits] at hpump
    have hout : t.dev.rxOutstanding < t.dev.rxFifoDepth := by
      rw [h.outstanding]
      exact Int.natCast_pos.mpr h.rxDepth
    have hmore := hpump h.left (Int.natCast_pos.mpr h.txDepth) (Int.natCast_pos.mpr h.rxDepth) hout
    have hhw : ∀ p : Pump, (XferLoop.finish p).1.t.hw = p.t.hw := by
      intro p
      simp only [XferLoop.finish]
      split <;> rfl
    rw [XferLoop.round_eq, hhw, hlimits]
    exact hmore
  have hrun : l.round.1.t.hw.written <+:
      (XferLoop.run (t.dev.msg t.dev.msgWriteIdx).addr t.dev.msgs.length l).t.hw.written := by
    rw [hn, XferLoop.run, if_pos h.idx, if_neg (fun hne => hne rfl)]
    split
    · exact (XferLoop.run_writes _ n l.round.1).written
    · exact List.prefix_rfl
  have hlast : t.i2cDwXferMsg.hw.written =
      (XferLoop.run (t.dev.msg t.dev.msgWriteIdx).addr t.dev.msgs.length l).t.hw.written :=
    tick_written _
  rw [hlast]
  exact hround.trans_le hrun.length_le

/-- Nothing is in the FIFOs or on the bus, there was no abort, and one more interrupt does not
change what was written. -/
@[mk_iff]
structure AtRest (t : Transfer) : Prop where
  txAbrt : t.hw.txAbrt = false
  cmdErr : t.dev.cmdErr = false
  txFifo : t.hw.txFifo = []
  rxFifo : t.hw.rxFifo = []
  busy : t.hw.busy = none
  written : ({ t with sched := [] } : Transfer).i2cDwIsr.hw.written = t.hw.written

instance decidableAtRest (t : Transfer) : Decidable t.AtRest :=
  decidable_of_iff _ t.atRest_iff.symm

theorem AtRest.taken_length (h : t.AtRest)
    (hphase : t.hw.Alive ∨ t.hw.txAbrt = true) :
    t.hw.taken.length = t.hw.written.countP isRead := by
  have ha : t.hw.Alive := hphase.resolve_right (by rw [h.txAbrt]; simp)
  obtain ⟨done, hcmds, hdone, -⟩ := ha.commands
  have hpending : t.hw.pending = [] := by rw [I2cHw.pending, h.busy, h.txFifo]; rfl
  have hbytes := ha.bytes
  rw [h.rxFifo, List.append_nil] at hbytes
  rw [hcmds, hpending, List.append_nil, hdone, hbytes]

/-- **At rest the message in progress has nothing left** that the driver knows of, unless an error
was met. -/
theorem Ahead.txBufLen_of_atRest (h : t.Ahead f msgs ms s) (hrest : t.AtRest)
    (herr : t.dev.msgErr = 0) (hbusy : t.dev.statusWrite = true)
    (htx : 0 < t.dev.txFifoDepth) (hrx : 0 < t.dev.rxFifoDepth) : t.dev.txBufLen = 0 := by
  by_contra hpos
  have hidx : t.dev.msgWriteIdx < ms.length := (h.running.sent.within hbusy).lt
  have hmask : t.hw.intrMask = Intr.master := by
    rcases h.watch.mask with hcmd | hne | hmask | ⟨hidx', -⟩
    · rw [hrest.cmdErr] at hcmd
      cases hcmd
    · exact absurd herr hne
    · exact hmask
    · omega
  let u : Transfer := { t with sched := [] }
  have htick : u.tick = u := tick_of_nil rfl
  have hstat : u.readClearIntrbits.1 = ⟨false, true, false, t.hw.stopDet⟩ := by
    rw [readClearIntrbits_stat, htick]
    simp [u, I2cHw.rawIntrStat, Intr.and, hmask, Intr.master, hrest.txFifo, hrest.rxFifo,
      hrest.txAbrt]
  have hclear : u.readClearIntrbits.2 =
      if t.hw.stopDet then { u with hw := { u.hw with stopDet := false } } else u := by
    simp only [readClearIntrbits_stat, htick] at hstat
    simp only [readClearIntrbits, readIntrStat, htick, hstat, Bool.false_eq_true, if_false,
      clrStopDet]
  have hout : t.dev.rxOutstanding = 0 := by
    have htaken := hrest.taken_length h.running.live.phase
    have hled : t.dev.rxOutstanding = t.hw.written.countP isRead - t.hw.taken.length :=
      h.running.live.sound.outstanding
    omega
  have hcan : u.readClearIntrbits.2.CanWrite := by
    rw [hclear]
    have hlt : t.dev.msgWriteIdx < t.dev.msgs.length := by
      rw [h.lengths.length]
      exact hidx
    split <;> exact ⟨rfl, hbusy, hlt, Nat.pos_of_ne_zero hpos, hrest.txFifo, hrest.rxFifo, htx, hrx,
      hout⟩
  have hmore := hcan.i2cDwXferMsg
  have hsame : u.i2cDwIsr.hw.written = u.readClearIntrbits.2.i2cDwXferMsg.hw.written := by
    have habrt : u.readClearIntrbits.1.txAbrt = false := by rw [hstat]
    have hwake : ∀ v stat, (u.wake v stat).hw = v.hw := by
      intro v stat
      simp only [wake]
      split
      · rfl
      · split <;> rfl
    rw [i2cDwIsr, htick, htick, irqHandlerMaster_eq habrt, hwake, hstat]
    rfl
  have hkept : u.readClearIntrbits.2.hw.written = t.hw.written := by
    rw [hclear]
    split <;> rfl
  rw [hkept, ← hsame, hrest.written] at hmore
  exact absurd hmore (Nat.lt_irrefl _)

theorem Ahead.known_of_taken (h : t.Ahead f msgs ms s) {i : Nat} (hrd : (msgAt ms i).rd = true)
    (hmore : readLenBefore ms i < t.hw.taken.length) : (t.dev.msg i).recvLen = false := by
  by_contra hrecv
  rw [Bool.not_eq_false] at hrecv
  have hw := h.lengths.waits i hrecv
  have hread : (t.dev.msg i).rd = true := by
    have hrd' := h.running.live.rd i
    rw [show (t.foreseen ms).dev.msg i = _ from DwI2cDev.foreseen_msg h.lengths.length i] at hrd'
    exact hrd'.trans hrd
  have hle : t.dev.msgReadIdx ≤ i := hw.readIdx hread
  have hmono := readLenBefore_mono ms hle
  cases hbusy : t.dev.statusRead with
  | false =>
    have htaken : t.hw.taken.length = readLenBefore ms t.dev.msgReadIdx :=
      h.running.recv.between hbusy
    omega
  | true =>
    obtain ⟨-, hrdIdx, -, -, htaken⟩ := h.running.recv.within hbusy
    have hleft : (t.foreseen ms).readPlace.bufLen =
        t.dev.rxBufLen + t.dev.gap ms t.dev.msgReadIdx := if_pos hbusy
    have hidx : (t.foreseen ms).readPlace.idx = t.dev.msgReadIdx := rfl
    rw [hidx, show (t.foreseen ms).hw = t.hw from rfl, hleft] at htaken
    rw [hidx] at hrdIdx
    rcases Nat.lt_or_eq_of_le hle with hlt | heq
    · have hmono' := readLenBefore_mono ms hlt
      rw [readLenBefore_succ hrdIdx] at hmono'
      omega
    · have hlen := h.lengths.len_add_gap t.dev.msgReadIdx
      have hfresh := hw.rxBufLen heq hbusy
      rw [← heq] at hfresh hmore
      omega

/-- **At rest the last message has all its commands**, when a byte of it was taken. -/
theorem Ahead.written_of_atRest (hv : View f) (h : t.Ahead f msgs ms s) (hrest : t.AtRest)
    (htx : 0 < t.dev.txFifoDepth) (hrx : 0 < t.dev.rxFifoDepth) {i : Nat} (hi : i + 1 = ms.length)
    (hrd : (msgAt ms i).rd = true) (hmore : readLenBefore ms i < t.hw.taken.length) :
    t.hw.written.map f = (commandStream ms).map f := by
  have hcount : readLenBefore ms i < t.hw.written.countP isRead := by
    rw [← hrest.taken_length h.running.live.phase]
    exact hmore
  have hsent := h.running.sent
  refine hsent.view_prefix.2 ?_
  by_contra hidx
  have hle : (t.foreseen ms).writePlace.idx ≤ i := by
    have := hsent.idx_le
    omega
  -- The last message is in progress, and the driver knows all that is left of it.
  obtain ⟨heq, hbusy, -, -⟩ := hsent.at_first hv hle hcount
  have hpos := (hsent.within hbusy).pos
  have heq' : t.dev.msgWriteIdx = i := heq
  have hbusy' : t.dev.statusWrite = true := hbusy
  have hleft : (t.foreseen ms).writePlace.bufLen = t.dev.txBufLen + t.dev.gap ms i := by
    show t.dev.txBufLen +
      (if t.dev.statusWrite then t.dev.gap ms t.dev.msgWriteIdx else 0) = _
    rw [if_pos hbusy', heq']
  rw [hleft, h.lengths.gap_eq_zero (h.known_of_taken hrd hmore)] at hpos
  have herr : t.dev.msgErr = 0 := by
    by_contra hne
    have hidle := (h.watch.failed hne).1
    rw [hbusy'] at hidle
    cases hidle
  have hnone := h.txBufLen_of_atRest hrest herr hbusy' htx hrx
  omega

end Transfer

open Transfer

/-! ## Block reads -/

/-- The commands of the last message, in a transfer whose bytes give the lengths of the others. -/
def lastCommands (msgs : List I2cMsg) (t : Transfer) : List Word :=
  t.hw.written.drop
    (streamBefore (knownLengths msgs t.hw.taken) (msgs.length - 1)).length

def lastMsg (msgs : List I2cMsg) : I2cMsg := msgAt msgs (msgs.length - 1)

/-- The length byte that the driver has taken for the last message. -/
def lengthByte (msgs : List I2cMsg) (t : Transfer) : Option Byte :=
  firstByte msgs t.hw.taken (msgs.length - 1)

/-- **A block read is done right**: it has read commands only; for a valid length byte there are
no more than the block has bytes, and as many at the end; one of them has the stop bit then,
whatever the length byte; and the buffer is not written beyond 34 bytes. -/
structure BlockRead (msgs : List I2cMsg) (t : Transfer) : Prop where
  reads : ∀ cmd ∈ lastCommands msgs t, isRead cmd = true
  atMost : ∀ n ∈ lengthByte msgs t, 0 < n.toNat → n.toNat ≤ i2cSmbusBlockMax →
    (lastCommands msgs t).length ≤ blockLen (lastMsg msgs) n
  exact : ∀ n ∈ lengthByte msgs t, 0 < n.toNat → n.toNat ≤ i2cSmbusBlockMax → t.AtRest →
    (lastCommands msgs t).length = blockLen (lastMsg msgs) n
  stop : ∀ n ∈ lengthByte msgs t, t.AtRest → ∃ cmd ∈ lastCommands msgs t, isStop cmd = true
  buffer : ∀ off, i2cSmbusBlockMax + 2 ≤ off →
    (t.dev.msg (msgs.length - 1)).buf off = (lastMsg msgs).buf off

/-- What both ends of a transfer have: a prefix of the commands, and buffers that hold what was
taken. -/
theorem BlockInv.outcome {t : Transfer} (h : BlockInv f msgs ms t) :
    t.hw.written.map f <+: (commandStream ms).map f ∧
      ∀ i, (t.dev.msg i).buf = (filled ms t.hw.taken i).buf := by
  have hbuf : ∀ i, t.dev.msgs.length = ms.length →
      (t.foreseen ms).dev.msg i = filled ms t.hw.taken i →
        (t.dev.msg i).buf = (filled ms t.hw.taken i).buf := by
    intro i hlen hmsg
    rw [show (t.foreseen ms).dev.msg i = _ from DwI2cDev.foreseen_msg hlen i] at hmsg
    have hbuf := congrArg I2cMsg.buf hmsg
    exact hbuf
  rcases h with h | h
  · exact ⟨h.running.sent.view_prefix.1, fun i => hbuf i h.lengths.length (h.running.live.msg i)⟩
  · have hlen : (t.foreseen ms).dev.msgs.length = ms.length := h.down.length
    rw [show (t.foreseen ms).dev.msgs.length = t.dev.msgs.length from
      t.dev.foreseen_length ms] at hlen
    exact ⟨h.sent.1, fun i => hbuf i hlen (h.down.msg i)⟩

theorem commandStream_last {i : Nat} (hi : i + 1 = ms.length) :
    commandStream ms =
      streamBefore ms i ++ (List.range (msgAt ms i).len).map (commandOf ms i) := by
  rw [commandStream, ← hi, ← streamUpTo_len, streamUpTo]

section Last

variable {t : Transfer} (hnil : msgs ≠ []) (hrd : (lastMsg msgs).rd = true)
  (hrecv : (lastMsg msgs).recvLen = true)

include hnil in
theorem last_lt : msgs.length - 1 < msgs.length ∧ msgs.length - 1 + 1 = msgs.length := by
  have := List.length_pos_iff.mpr hnil
  omega

include hnil hrd hrecv in
theorem len_of_lengthByte {n : Byte} (hn : n ∈ lengthByte msgs t) :
    (msgAt (knownLengths msgs t.hw.taken) (msgs.length - 1)).len = blockLen (lastMsg msgs) n := by
  have hn' : firstByte msgs t.hw.taken (msgs.length - 1) = some n := hn
  rw [knownLengths_len (last_lt hnil).1 hrecv hrd, hn']
  rfl

include hnil in
theorem lastCommands_prefix (h : BlockInv f msgs (knownLengths msgs t.hw.taken) t) :
    (lastCommands msgs t).map f <+:
      ((List.range (msgAt (knownLengths msgs t.hw.taken) (msgs.length - 1)).len).map
        (commandOf (knownLengths msgs t.hw.taken) (msgs.length - 1))).map f := by
  have hdrop := h.outcome.1.drop
    (streamBefore (knownLengths msgs t.hw.taken) (msgs.length - 1)).length
  rw [commandStream_last (by rw [knownLengths_length, (last_lt hnil).2]), ← List.map_drop,
    ← List.map_drop, List.drop_left] at hdrop
  exact hdrop

include hnil hrd in
/-- **At rest it has had all of them**, when its length byte was taken. -/
theorem lastCommands_of_atRest (hv : View f)
    (h : BlockInv f msgs (knownLengths msgs t.hw.taken) t)
    (htx : 0 < t.hw.conf.txDepth) (hrx : 0 < t.hw.conf.rxDepth) (hrest : t.AtRest) {n : Byte}
    (hn : n ∈ lengthByte msgs t) :
    (lastCommands msgs t).map f =
      ((List.range (msgAt (knownLengths msgs t.hw.taken) (msgs.length - 1)).len).map
        (commandOf (knownLengths msgs t.hw.taken) (msgs.length - 1))).map f := by
  have hlast : msgs.length - 1 + 1 = (knownLengths msgs t.hw.taken).length := by
    rw [knownLengths_length, (last_lt hnil).2]
  rcases h with h | h
  · have htx' : t.dev.txFifoDepth = t.hw.conf.txDepth := h.running.live.txDepth
    have hrx' : t.dev.rxFifoDepth = t.hw.conf.rxDepth := h.running.live.rxDepth
    have hwritten := h.written_of_atRest hv hrest (htx' ▸ htx) (hrx' ▸ hrx) hlast
      ((knownLengths_rd _ _ _).trans hrd) (List.getElem?_eq_some_iff.mp hn).1
    have hdrop := congrArg (List.drop
      (streamBefore (knownLengths msgs t.hw.taken) (msgs.length - 1)).length) hwritten
    rw [commandStream_last hlast, ← List.map_drop, ← List.map_drop, List.drop_left] at hdrop
    exact hdrop
  · have hcmd : t.dev.cmdErr = true := h.cmdErr
    rw [hrest.cmdErr] at hcmd
    cases hcmd

include hnil hrd hrecv in
theorem buf_beyond (hok : LengthsOk msgs t.hw.taken)
    (h : BlockInv f msgs (knownLengths msgs t.hw.taken) t) {off : Nat}
    (hoff : i2cSmbusBlockMax + 2 ≤ off) :
    (t.dev.msg (msgs.length - 1)).buf off = (lastMsg msgs).buf off := by
  have hsame := congrFun (knownLengths_buf msgs t.hw.taken (msgs.length - 1)) off
  rw [h.outcome.2]
  simp only [filled]
  split
  next hin =>
    cases hfirst : firstByte msgs t.hw.taken (msgs.length - 1) with
    | none =>
      -- No byte of the message was taken.
      have hge := List.getElem?_eq_none_iff.mp hfirst
      rw [List.getD_eq_default _ _ (by omega)]
      exact hsame
    | some n =>
      have hle := (hok _ (last_lt hnil).1 hrd hrecv n hfirst).2.1
      have hlen := len_of_lengthByte (t := t) hnil hrd hrecv hfirst
      have hbound : blockLen (lastMsg msgs) n ≤ n.toNat + 2 := by
        simp only [blockLen]
        split <;> omega
      omega
  next => exact hsame

end Last

/-- A command byte is written, and a block is read. -/
def blockMsgs : List I2cMsg :=
  [⟨0x50, false, false, false, 1, fun _ => 7⟩, ⟨0x50, true, true, false, 1, fun _ => 0⟩]

/-- The controller does a command, which brings this byte when it reads. -/
def oneCommand (byte : Byte) : List MasterEvent := [.hw .fetch, .hw (.finish byte)]

end RealtekIpcam.I2c
