import RealtekIpcam.I2c.Receive

/-!
# Messages whose length comes from the bus

A read message with `I2C_M_RECV_LEN` does not know its length.  The first byte that comes in for
it is the length of a block, and `i2c_dw_recv_len` then sets the length of the message, in the
middle of it.  Until then the driver asks for as many bytes as the message came with, and writes
no stop.

`knownLengths` are the messages with the lengths that the bytes of a run give them.  A transfer
in which the lengths were known from the beginning differs from the real one in the lengths of
the messages that still wait, and in what is left of the message that is written or read.
`Transfer.foreseen` is that transfer, and it keeps the invariant.  The point is the moment when
the length comes in: the real transfer changes, and the foreseen one does not.
-/

namespace RealtekIpcam.I2c

/-! ## Lengths -/

/-- The bytes of a block whose length byte is `n`: that byte, `n` more, and the PEC. -/
def blockLen (msg : I2cMsg) (n : Byte) : Nat := n.toNat + if msg.pec then 2 else 1

/-- A message with the length that its first byte gives it.  One that waits for its length has
more bytes than it came with. -/
def I2cMsg.withFirst (msg : I2cMsg) (first : Option Byte) : I2cMsg :=
  if msg.recvLen then
    { msg with
      len := (if msg.rd then first else none).elim (msg.len + 1) (blockLen msg)
      recvLen := false }
  else msg

/-- The messages with the lengths that the bytes give them. -/
def knownLengths : List I2cMsg → List Byte → List I2cMsg
  | [], _ => []
  | msg :: msgs, bytes =>
    let msg := msg.withFirst bytes.head?
    msg :: knownLengths msgs (bytes.drop (if msg.rd then msg.len else 0))

/-- The first byte of message `i`. -/
def firstByte (msgs : List I2cMsg) (bytes : List Byte) (i : Nat) : Option Byte :=
  bytes[readLenBefore (knownLengths msgs bytes) i]?

/-- A length byte that `i2c_dw_read` accepts, and that makes the message longer than it came. -/
def LengthOk (msg : I2cMsg) (n : Byte) : Prop :=
  0 < n.toNat ∧ n.toNat ≤ i2cSmbusBlockMax ∧ msg.len < blockLen msg n
  deriving Decidable

/-- Every length byte among the bytes is one of these. -/
def LengthsOk (msgs : List I2cMsg) (bytes : List Byte) : Prop :=
  ∀ i, i < msgs.length → (msgAt msgs i).rd = true → (msgAt msgs i).recvLen = true →
    ∀ n ∈ firstByte msgs bytes i, LengthOk (msgAt msgs i) n

instance decidableLengthsOk (msgs : List I2cMsg) (bytes : List Byte) :
    Decidable (LengthsOk msgs bytes) :=
  inferInstanceAs (Decidable (∀ i, i < msgs.length → _ → _ → _))

variable {msgs ms : List I2cMsg} {bytes : List Byte} {i : Nat}

theorem withFirst_recvLen (msg : I2cMsg) (first : Option Byte) :
    (msg.withFirst first).recvLen = false := by
  simp only [I2cMsg.withFirst]
  split
  · rfl
  · simpa using ‹¬ msg.recvLen = true›

theorem withFirst_rd (msg : I2cMsg) (first : Option Byte) :
    (msg.withFirst first).rd = msg.rd := by
  simp only [I2cMsg.withFirst]
  split <;> rfl

theorem withFirst_pec (msg : I2cMsg) (first : Option Byte) :
    (msg.withFirst first).pec = msg.pec := by
  simp only [I2cMsg.withFirst]
  split <;> rfl

theorem withFirst_buf (msg : I2cMsg) (first : Option Byte) :
    (msg.withFirst first).buf = msg.buf := by
  simp only [I2cMsg.withFirst]
  split <;> rfl

theorem withFirst_of_known {msg : I2cMsg} (h : msg.recvLen = false) (first : Option Byte) :
    msg.withFirst first = msg := by
  simp [I2cMsg.withFirst, h]

@[simp] theorem knownLengths_length (msgs : List I2cMsg) (bytes : List Byte) :
    (knownLengths msgs bytes).length = msgs.length := by
  induction msgs generalizing bytes with
  | nil => rfl
  | cons msg msgs ih => simp [knownLengths, ih]

theorem readLenBefore_cons (msg : I2cMsg) (msgs : List I2cMsg) (i : Nat) :
    readLenBefore (msg :: msgs) (i + 1) =
      (if msg.rd then msg.len else 0) + readLenBefore msgs i := by
  induction i with
  | zero => rw [readLenBefore, readLenBefore, readLenBefore, Nat.add_comm]; rfl
  | succ i ih =>
    rw [readLenBefore, ih, readLenBefore, Nat.add_assoc]
    rfl

/-- **Each message by itself**: its first byte is the one after the bytes of those before. -/
theorem msgAt_knownLengths (msgs : List I2cMsg) (bytes : List Byte) (hi : i < msgs.length) :
    msgAt (knownLengths msgs bytes) i = (msgAt msgs i).withFirst (firstByte msgs bytes i) := by
  induction msgs generalizing bytes i with
  | nil => exact absurd hi (Nat.not_lt_zero i)
  | cons msg msgs ih =>
    cases i with
    | zero =>
      simp only [firstByte, readLenBefore]
      rw [← List.head?_eq_getElem?]
      rfl
    | succ i =>
      have hrest := ih (bytes.drop (if (msg.withFirst bytes.head?).rd then
        (msg.withFirst bytes.head?).len else 0)) (Nat.lt_of_succ_lt_succ hi)
      simp only [firstByte, List.getElem?_drop] at hrest
      simp only [firstByte, knownLengths, readLenBefore_cons]
      exact hrest

theorem msgAt_of_length_le (h : msgs.length ≤ i) :
    msgAt msgs i = ⟨0, false, false, false, 0, fun _ => 0⟩ :=
  List.getD_eq_default _ _ h

theorem knownLengths_rd (msgs : List I2cMsg) (bytes : List Byte) (i : Nat) :
    (msgAt (knownLengths msgs bytes) i).rd = (msgAt msgs i).rd := by
  by_cases hi : i < msgs.length
  · rw [msgAt_knownLengths _ _ hi, withFirst_rd]
  · rw [msgAt_of_length_le (Nat.le_of_not_lt hi),
      msgAt_of_length_le (by rw [knownLengths_length]; exact Nat.le_of_not_lt hi)]

theorem knownLengths_buf (msgs : List I2cMsg) (bytes : List Byte) (i : Nat) :
    (msgAt (knownLengths msgs bytes) i).buf = (msgAt msgs i).buf := by
  by_cases hi : i < msgs.length
  · rw [msgAt_knownLengths _ _ hi, withFirst_buf]
  · rw [msgAt_of_length_le (Nat.le_of_not_lt hi),
      msgAt_of_length_le (by rw [knownLengths_length]; exact Nat.le_of_not_lt hi)]

theorem knownLengths_len (hi : i < msgs.length) (hrecv : (msgAt msgs i).recvLen = true)
    (hrd : (msgAt msgs i).rd = true) :
    (msgAt (knownLengths msgs bytes) i).len =
      (firstByte msgs bytes i).elim ((msgAt msgs i).len + 1) (blockLen (msgAt msgs i)) := by
  rw [msgAt_knownLengths _ _ hi, I2cMsg.withFirst, if_pos hrecv]
  cases firstByte msgs bytes i <;> simp [hrd]

theorem len_lt_knownLengths (hok : LengthsOk msgs bytes) (hi : i < msgs.length)
    (hrecv : (msgAt msgs i).recvLen = true) :
    (msgAt msgs i).len < (msgAt (knownLengths msgs bytes) i).len := by
  have hok' := hok i hi
  rw [msgAt_knownLengths _ _ hi, I2cMsg.withFirst, if_pos hrecv]
  cases hrd : (msgAt msgs i).rd
  · simp
  · cases hfirst : firstByte msgs bytes i with
    | none => simp
    | some n => simpa using (hok' hrd hrecv n hfirst).2.2

theorem knownLengths_plain (hpos : ∀ msg ∈ msgs, 0 < msg.len) (hok : LengthsOk msgs bytes) :
    Plain (knownLengths msgs bytes) := by
  intro msg hmsg
  obtain ⟨i, hi, rfl⟩ := List.mem_iff_getElem.mp hmsg
  have hi' : i < msgs.length := by simpa using hi
  have hat : (knownLengths msgs bytes)[i] = msgAt (knownLengths msgs bytes) i :=
    (List.getD_eq_getElem _ _ hi).symm
  have hlen : 0 < (msgAt msgs i).len := by
    rw [msgAt, List.getD_eq_getElem _ _ hi']
    exact hpos _ (List.getElem_mem hi')
  rw [hat]
  refine ⟨?_, by rw [msgAt_knownLengths _ _ hi', withFirst_recvLen]⟩
  cases hrecv : (msgAt msgs i).recvLen with
  | false =>
    rw [msgAt_knownLengths _ _ hi', withFirst_of_known hrecv]
    exact hlen
  | true => exact hlen.trans (len_lt_knownLengths hok hi' hrecv)

/-! ## The foreseen transfer -/

/-- What message `i` is short of. -/
def DwI2cDev.gap (dev : DwI2cDev) (ms : List I2cMsg) (i : Nat) : Nat :=
  (msgAt ms i).len - (dev.msg i).len

/-- The driver, had it known the lengths. -/
def DwI2cDev.foreseen (dev : DwI2cDev) (ms : List I2cMsg) : DwI2cDev :=
  { dev with
    msgs := dev.msgs.mapIdx fun i msg => { msg with len := (msgAt ms i).len, recvLen := false }
    txBufLen := dev.txBufLen + if dev.statusWrite then dev.gap ms dev.msgWriteIdx else 0
    rxBufLen := if dev.statusRead then dev.rxBufLen + dev.gap ms dev.msgReadIdx else 0 }

/-- Message `i` waits for its length: it was not left by the writing, and the reading has not
begun it. -/
structure Waits (msgs ms : List I2cMsg) (dev : DwI2cDev) (i : Nat) : Prop where
  recvLen : (msgAt msgs i).recvLen = true
  pos : 0 < (dev.msg i).len
  len : (dev.msg i).len < (msgAt ms i).len
  writeIdx : dev.msgWriteIdx ≤ i
  readIdx : (dev.msg i).rd = true → dev.msgReadIdx ≤ i
  rxBufLen : dev.msgReadIdx = i → dev.statusRead = true → dev.rxBufLen = (dev.msg i).len

/-- The driver's messages against those whose lengths are known. -/
structure Lengths (msgs ms : List I2cMsg) (dev : DwI2cDev) : Prop where
  length : dev.msgs.length = ms.length
  waits : ∀ i, (dev.msg i).recvLen = true → Waits msgs ms dev i
  known : ∀ i, (dev.msg i).recvLen = false → (dev.msg i).len = (msgAt ms i).len

variable {dev dev' : DwI2cDev}

theorem DwI2cDev.foreseen_msg (hlen : dev.msgs.length = ms.length) (i : Nat) :
    (dev.foreseen ms).msg i = { dev.msg i with len := (msgAt ms i).len, recvLen := false } := by
  simp only [DwI2cDev.msg, DwI2cDev.foreseen, List.getD_eq_getElem?_getD, List.getElem?_mapIdx]
  by_cases hi : i < dev.msgs.length
  · simp [List.getElem?_eq_getElem hi]
  · have hnone : dev.msgs[i]? = none := List.getElem?_eq_none (Nat.le_of_not_lt hi)
    have hat := msgAt_of_length_le (show ms.length ≤ i by omega)
    simp [hnone, hat]

@[simp] theorem DwI2cDev.foreseen_length (dev : DwI2cDev) (ms : List I2cMsg) :
    (dev.foreseen ms).msgs.length = dev.msgs.length := by
  simp [DwI2cDev.foreseen]

namespace Lengths

theorem gap_pos_iff (h : Lengths msgs ms dev) (i : Nat) :
    0 < dev.gap ms i ↔ (dev.msg i).recvLen = true := by
  unfold DwI2cDev.gap
  constructor
  · intro hpos
    by_contra hrecv
    have := h.known i (by simpa using hrecv)
    omega
  · intro hrecv
    have := (h.waits i hrecv).len
    omega

theorem gap_eq_zero (h : Lengths msgs ms dev) {i : Nat} (hrecv : (dev.msg i).recvLen = false) :
    dev.gap ms i = 0 := by
  rw [DwI2cDev.gap, h.known i hrecv, Nat.sub_self]

theorem len_add_gap (h : Lengths msgs ms dev) (i : Nat) :
    (dev.msg i).len + dev.gap ms i = (msgAt ms i).len := by
  unfold DwI2cDev.gap
  cases hrecv : (dev.msg i).recvLen with
  | false =>
    have := h.known i hrecv
    omega
  | true =>
    have := (h.waits i hrecv).len
    omega

theorem congr (h : Lengths msgs ms dev) (hlength : dev'.msgs.length = dev.msgs.length)
    (hmsg : ∀ i, (dev'.msg i).len = (dev.msg i).len ∧ (dev'.msg i).recvLen = (dev.msg i).recvLen ∧
      (dev'.msg i).rd = (dev.msg i).rd)
    (hwrite : dev'.msgWriteIdx = dev.msgWriteIdx) (hread : dev'.msgReadIdx = dev.msgReadIdx)
    (hstatus : dev'.statusRead = dev.statusRead) (hlen : dev'.rxBufLen = dev.rxBufLen) :
    Lengths msgs ms dev' := by
  refine ⟨hlength.trans h.length, fun i hrecv => ?_, fun i hrecv => ?_⟩
  · obtain ⟨hl, hr, hd⟩ := hmsg i
    have hw := h.waits i (hr ▸ hrecv)
    refine ⟨hw.recvLen, ?_, ?_, hwrite ▸ hw.writeIdx, ?_, ?_⟩
    · rw [hl]
      exact hw.pos
    · rw [hl]
      exact hw.len
    · rw [hd, hread]
      exact hw.readIdx
    · rw [hl, hread, hstatus, hlen]
      exact hw.rxBufLen
  · rw [(hmsg i).1]
    exact h.known i ((hmsg i).2.1 ▸ hrecv)

theorem of_dev (h : Lengths msgs ms dev) (hmsgs : dev'.msgs = dev.msgs)
    (hwrite : dev'.msgWriteIdx = dev.msgWriteIdx) (hread : dev'.msgReadIdx = dev.msgReadIdx)
    (hstatus : dev'.statusRead = dev.statusRead) (hlen : dev'.rxBufLen = dev.rxBufLen) :
    Lengths msgs ms dev' := by
  refine h.congr (by rw [hmsgs]) (fun i => ?_) hwrite hread hstatus hlen
  simp only [DwI2cDev.msg, hmsgs, and_self]

end Lengths

namespace Transfer

variable {f : Word → Word} {s : Prop} {t : Transfer}

/-- The transfer, had the driver known the lengths. -/
def foreseen (t : Transfer) (ms : List I2cMsg) : Transfer := { t with dev := t.dev.foreseen ms }

/-! ## The writing foreseen -/

namespace Pump

/-- The inner loop, had it known the length. -/
def foreseen (p : Pump) (ms : List I2cMsg) : Pump :=
  { p with t := p.t.foreseen ms, bufLen := p.bufLen + p.t.dev.gap ms p.t.dev.msgWriteIdx }

variable {p : Pump}

theorem foreseen_cmd (h : Lengths msgs ms p.t.dev) (hpos : 0 < p.bufLen) :
    (p.foreseen ms).cmd = p.cmd := by
  have hgap := h.gap_pos_iff p.t.dev.msgWriteIdx
  have hrecv : ((p.foreseen ms).t.dev.msg p.t.dev.msgWriteIdx).recvLen = false := by
    show ((p.t.dev.foreseen ms).msg _).recvLen = false
    rw [DwI2cDev.foreseen_msg h.length]
  have hcond : ((p.foreseen ms).t.dev.msgWriteIdx + 1 = (p.foreseen ms).t.dev.msgs.length ∧
      (p.foreseen ms).bufLen = 1 ∧
        ¬ ((p.foreseen ms).t.dev.msg (p.foreseen ms).t.dev.msgWriteIdx).recvLen) ↔
      (p.t.dev.msgWriteIdx + 1 = p.t.dev.msgs.length ∧ p.bufLen = 1 ∧
        ¬ (p.t.dev.msg p.t.dev.msgWriteIdx).recvLen) := by
    rw [show (p.foreseen ms).t.dev.msgWriteIdx = p.t.dev.msgWriteIdx from rfl, hrecv,
      show (p.foreseen ms).t.dev.msgs.length = p.t.dev.msgs.length from p.t.dev.foreseen_length ms,
      show (p.foreseen ms).bufLen = p.bufLen + p.t.dev.gap ms p.t.dev.msgWriteIdx from rfl,
      ← hgap]
    constructor
    · rintro ⟨hlast, hone, -⟩
      exact ⟨hlast, by omega, by omega⟩
    · rintro ⟨hlast, hone, hnone⟩
      exact ⟨hlast, by omega, by simp⟩
  simp only [cmd]
  rw [if_congr hcond rfl rfl]
  rfl

theorem foreseen_round (h : Lengths msgs ms p.t.dev) (hpos : 0 < p.bufLen) :
    (p.foreseen ms).round = (p.round.1.foreseen ms, p.round.2) := by
  have hcmd := foreseen_cmd h hpos
  have hmsg := DwI2cDev.foreseen_msg h.length p.t.dev.msgWriteIdx
  have hgo : ((p.foreseen ms).bufLen > 0 ∧ (p.foreseen ms).txLimit > 0 ∧
      (p.foreseen ms).rxLimit > 0) ↔ (p.bufLen > 0 ∧ p.txLimit > 0 ∧ p.rxLimit > 0) := by
    show (p.bufLen + p.t.dev.gap ms p.t.dev.msgWriteIdx > 0 ∧ p.txLimit > 0 ∧ p.rxLimit > 0) ↔ _
    omega
  have hrd : ((p.foreseen ms).t.dev.msg (p.foreseen ms).t.dev.msgWriteIdx).rd =
      (p.t.dev.msg p.t.dev.msgWriteIdx).rd := by
    show ((p.t.dev.foreseen ms).msg p.t.dev.msgWriteIdx).rd = _
    rw [hmsg]
  have hsub : (p.foreseen ms).bufLen - 1 = p.bufLen - 1 + p.t.dev.gap ms p.t.dev.msgWriteIdx := by
    show p.bufLen + p.t.dev.gap ms p.t.dev.msgWriteIdx - 1 = _
    omega
  simp only [Pump.round]
  rw [if_congr hgo rfl rfl]
  split
  · rw [hrd]
    split
    · rw [show (p.foreseen ms).t.dev.rxOutstanding = p.t.dev.rxOutstanding from rfl,
        show (p.foreseen ms).t.dev.rxFifoDepth = p.t.dev.rxFifoDepth from rfl]
      split
      · rfl
      · rw [hcmd, hsub]
        rfl
    · have hload : (p.foreseen ms).t.dev.load (p.foreseen ms).buf = p.t.dev.load p.buf := by
        show ((p.t.dev.foreseen ms).msg p.buf.msg).buf p.buf.off = _
        rw [DwI2cDev.foreseen_msg h.length]
        rfl
      rw [hcmd, hsub, hload]
      rfl
  · rfl

theorem round_dev (p : Pump) :
    (∃ n, p.round.1.t.dev = { p.t.dev with rxOutstanding := n }) ∧
      p.bufLen ≤ p.round.1.bufLen + 1 := by
  simp only [Pump.round]
  split
  · split
    · split
      · exact ⟨⟨_, rfl⟩, Nat.le_succ _⟩
      · exact ⟨⟨_, rfl⟩, Nat.le_sub_one_of_lt (Nat.lt_succ_self _) |>.trans (by simp; omega)⟩
    · exact ⟨⟨_, rfl⟩, by simp; omega⟩
  · exact ⟨⟨_, rfl⟩, Nat.le_succ _⟩

theorem run_dev (n : Nat) (p : Pump) :
    ∃ k, (p.run n).t.dev = { p.t.dev with rxOutstanding := k } := by
  induction n generalizing p with
  | zero => exact ⟨_, rfl⟩
  | succ n ih =>
    obtain ⟨k, hk⟩ := p.round_dev.1
    rw [Pump.run]
    split
    · obtain ⟨k', hk'⟩ := ih p.round.1
      exact ⟨k', by rw [hk', hk]⟩
    · exact ⟨k, hk⟩

/-- To foresee the lengths commutes with a run of the pump. -/
theorem foreseen_run (n : Nat) (h : Lengths msgs ms p.t.dev) (hn : n ≤ p.bufLen) :
    (p.foreseen ms).run n = (p.run n).foreseen ms := by
  induction n generalizing p with
  | zero => rfl
  | succ n ih =>
    obtain ⟨⟨k, hk⟩, hle⟩ := p.round_dev
    have hround := foreseen_round h (by omega)
    have hnext : Lengths msgs ms p.round.1.t.dev := by
      rw [hk]
      exact h.of_dev rfl rfl rfl rfl rfl
    rw [Pump.run, Pump.run, hround]
    split
    · exact ih hnext (by omega)
    · rfl

end Pump

namespace XferLoop

/-- The outer loop, had it known the lengths. -/
def foreseen (l : XferLoop) (ms : List I2cMsg) : XferLoop :=
  { l with
    t := l.t.foreseen ms
    bufLen := l.bufLen +
      if l.t.dev.statusWrite then l.t.dev.gap ms l.t.dev.msgWriteIdx else 0 }

variable {l : XferLoop}

theorem foreseen_limits (h : Lengths msgs ms l.t.dev) :
    (l.foreseen ms).begin.limits = l.begin.limits.foreseen ms := by
  have hmsg := DwI2cDev.foreseen_msg h.length l.t.dev.msgWriteIdx
  have hbegin : (l.foreseen ms).begin =
      { l.begin with
        t := l.begin.t.foreseen ms
        bufLen := l.begin.bufLen + l.t.dev.gap ms l.t.dev.msgWriteIdx } := by
    cases hbusy : l.t.dev.statusWrite with
    | true =>
      have hbusy' : (l.foreseen ms).t.dev.statusWrite = true := hbusy
      simp only [XferLoop.begin, hbusy, hbusy', if_true]
      simp only [foreseen, hbusy, if_true]
    | false =>
      have hbusy' : (l.foreseen ms).t.dev.statusWrite = false := hbusy
      have hlen : ((l.foreseen ms).t.dev.msg (l.foreseen ms).t.dev.msgWriteIdx).len =
          (l.t.dev.msg l.t.dev.msgWriteIdx).len + l.t.dev.gap ms l.t.dev.msgWriteIdx := by
        show ((l.t.dev.foreseen ms).msg l.t.dev.msgWriteIdx).len = _
        rw [hmsg, h.len_add_gap]
      simp only [XferLoop.begin, hbusy, hbusy', Bool.false_eq_true, if_false]
      rw [hlen]
      rfl
  have hdev : l.begin.t = l.t := l.begin_t
  rw [hbegin]
  simp only [XferLoop.limits, Pump.foreseen, readTxflr, readRxflr, hdev]
  rfl

/-- **The end of a round**: the foreseen message has something left as long as the real one has, or
waits. -/
theorem foreseen_finish {p : Pump} (h : Lengths msgs ms p.t.dev) :
    finish (p.foreseen ms) = ((finish p).1.foreseen ms, (finish p).2) := by
  have hgap := h.gap_pos_iff p.t.dev.msgWriteIdx
  have hcond : ((p.foreseen ms).bufLen > 0 ∨
      ((p.foreseen ms).t.dev.msg (p.foreseen ms).t.dev.msgWriteIdx).recvLen = true) ↔
      (p.bufLen > 0 ∨ (p.t.dev.msg p.t.dev.msgWriteIdx).recvLen = true) := by
    have hrecv : ((p.foreseen ms).t.dev.msg (p.foreseen ms).t.dev.msgWriteIdx).recvLen = false := by
      show ((p.t.dev.foreseen ms).msg _).recvLen = false
      rw [DwI2cDev.foreseen_msg h.length]
    rw [hrecv, ← hgap]
    show (p.bufLen + p.t.dev.gap ms p.t.dev.msgWriteIdx > 0 ∨ false = true) ↔ _
    simp only [Bool.false_eq_true, or_false]
    omega
  by_cases hleft : p.bufLen > 0 ∨ (p.t.dev.msg p.t.dev.msgWriteIdx).recvLen = true
  · rw [show finish p = _ from if_pos hleft,
      show finish (p.foreseen ms) = _ from if_pos (hcond.mpr hleft)]
    rfl
  · have hnone : p.t.dev.gap ms p.t.dev.msgWriteIdx = 0 := by
      rw [← hgap] at hleft
      omega
    have hsame : p.foreseen ms = { p with t := p.t.foreseen ms } := by
      simp only [Pump.foreseen, hnone, Nat.add_zero]
    have hnot := hcond.not.mpr hleft
    rw [hsame] at hnot ⊢
    rw [show finish p = _ from if_neg hleft,
      show finish { p with t := p.t.foreseen ms } = _ from if_neg hnot]
    rfl

/-- The outer loop, whose lengths are foreseen. -/
structure Ahead (f : Word → Word) (msgs ms : List I2cMsg) (s : Prop) (l : XferLoop) : Prop where
  inv : (l.foreseen ms).Inv f ms s
  lengths : Lengths msgs ms l.t.dev

theorem finish_lengths {p : Pump} (h : Lengths msgs ms p.t.dev) :
    Lengths msgs ms (finish p).1.t.dev := by
  simp only [finish]
  split
  · exact h.of_dev rfl rfl rfl rfl rfl
  next hdone =>
    have hnone : (p.t.dev.msg p.t.dev.msgWriteIdx).recvLen = false :=
      Bool.eq_false_iff.mpr fun hrecv => hdone (Or.inr hrecv)
    refine ⟨h.length, fun i hrecv => ?_, fun i hrecv => h.known i hrecv⟩
    have hw := h.waits i hrecv
    refine ⟨hw.recvLen, hw.pos, hw.len, ?_, hw.readIdx, hw.rxBufLen⟩
    rcases Nat.lt_or_eq_of_le hw.writeIdx with hlt | heq
    · exact hlt
    · rw [heq] at hnone
      exact absurd hrecv (Bool.eq_false_iff.mp hnone)

theorem finish_msgErr (p : Pump) : (finish p).1.t.dev.msgErr = p.t.dev.msgErr := by
  simp only [finish]
  split <;> rfl

theorem finish_statusWrite (p : Pump) : (finish p).1.t.dev.statusWrite = !(finish p).2 := by
  simp only [finish]
  split <;> rfl

theorem Ahead.round (hp : Plain ms) (hv : View f) (hb : Blind f) (h : l.Ahead f msgs ms s)
    (hi : l.t.dev.msgWriteIdx < ms.length) :
    l.round.1.Ahead f msgs ms s ∧ l.round.1.t.dev.msgErr = l.t.dev.msgErr ∧
      l.round.1.t.dev.statusWrite = !l.round.2 ∧
      (l.round.2 = true → l.round.1.t.dev.msgWriteIdx = l.t.dev.msgWriteIdx + 1) := by
  have hdev : l.begin.limits.t.dev = l.t.dev := by
    show l.begin.t.tick.tick.dev = _
    rw [l.begin_t]
    rfl
  have hlengths : Lengths msgs ms l.begin.limits.t.dev := hdev ▸ h.lengths
  obtain ⟨k, hk⟩ := Pump.run_dev l.begin.limits.bufLen l.begin.limits
  have hlengths' : Lengths msgs ms (l.begin.limits.run l.begin.limits.bufLen).t.dev := by
    rw [hk]
    exact hlengths.of_dev rfl rfl rfl rfl rfl
  have hstart := h.inv.limits (Or.inl hb)
  rw [foreseen_limits h.lengths] at hstart
  obtain ⟨hpump, -⟩ := hstart.run hp hv hi l.begin.limits.bufLen
  rw [Pump.foreseen_run _ hlengths (Nat.le_refl _)] at hpump
  obtain ⟨hinv, hmore, -⟩ := finish_inv hp hpump hi (Or.inl hb) (Or.inl hb)
  rw [foreseen_finish hlengths'] at hinv hmore
  rw [round_eq]
  refine ⟨⟨hinv, finish_lengths hlengths'⟩, ?_, finish_statusWrite _, hmore⟩
  rw [finish_msgErr, hk, hdev]

/-- **The outer loop.**  It is left in a message, after the last one, or before one to another
address. -/
theorem Ahead.run (hp : Plain ms) (hv : View f) (hb : Blind f) (addr n : Nat) {l : XferLoop}
    (h : l.Ahead f msgs ms s) (herr : l.t.dev.msgErr = 0)
    (haddr : l.t.dev.statusWrite = false ∨ (l.t.dev.msg l.t.dev.msgWriteIdx).addr = addr)
    (hn : ms.length ≤ l.t.dev.msgWriteIdx + n) :
    (l.run addr n).Ahead f msgs ms s ∧
      ((l.run addr n).t.dev.msgErr = 0 →
        (l.run addr n).t.dev.statusWrite = true ∨ (l.run addr n).t.dev.msgWriteIdx = ms.length) ∧
      ((l.run addr n).t.dev.msgErr ≠ 0 →
        (l.run addr n).t.dev.statusWrite = false ∧
          (l.run addr n).t.dev.msgWriteIdx < ms.length) := by
  have hle : l.t.dev.msgWriteIdx ≤ ms.length := h.inv.sent.idx_le
  induction n generalizing l with
  | zero =>
    refine ⟨h, fun _ => Or.inr ?_, fun hne => absurd herr hne⟩
    show l.t.dev.msgWriteIdx = _
    omega
  | succ n ih =>
    rw [XferLoop.run]
    have hlen := h.lengths.length
    by_cases hi : l.t.dev.msgWriteIdx < l.t.dev.msgs.length
    · rw [if_pos hi]
      by_cases hother : (l.t.dev.msg l.t.dev.msgWriteIdx).addr ≠ addr
      · rw [if_pos hother]
        have hnone := haddr.resolve_right hother
        refine ⟨⟨⟨?_, h.inv.sent, h.inv.buf, h.inv.bufLen, h.inv.restart⟩,
          h.lengths.of_dev rfl rfl rfl rfl rfl⟩, fun hzero => ?_, fun _ => ⟨hnone, hlen ▸ hi⟩⟩
        · exact h.inv.live.of_dev rfl rfl ⟨rfl, rfl⟩ rfl
        · cases hzero
      · rw [if_neg hother]
        obtain ⟨hround, herr', hstatus, hmore⟩ := h.round hp hv hb (hlen ▸ hi)
        by_cases hgo : l.round.2 = true
        · rw [if_pos hgo]
          refine ih hround (herr'.trans herr) (Or.inl ?_) ?_ hround.inv.sent.idx_le
          · rw [hstatus, hgo]
            rfl
          · rw [hmore hgo]
            omega
        · rw [if_neg hgo]
          refine ⟨hround, fun _ => Or.inl ?_, fun hne => absurd (herr'.trans herr) hne⟩
          rw [hstatus]
          simpa using hgo
    · rw [if_neg hi]
      exact ⟨h, fun _ => Or.inr (by omega), fun hne => absurd herr hne⟩

theorem finish_msgs (p : Pump) : (finish p).1.t.dev.msgs = p.t.dev.msgs := by
  simp only [finish]
  split <;> rfl

theorem run_msgs (addr n : Nat) (l : XferLoop) : (l.run addr n).t.dev.msgs = l.t.dev.msgs := by
  induction n generalizing l with
  | zero => rfl
  | succ n ih =>
    have hround : l.round.1.t.dev.msgs = l.t.dev.msgs := by
      obtain ⟨k, hk⟩ := Pump.run_dev l.begin.limits.bufLen l.begin.limits
      rw [round_eq, finish_msgs, hk]
      show l.begin.t.tick.tick.dev.msgs = _
      rw [l.begin_t]
      rfl
    rw [XferLoop.run]
    split
    · split
      · rfl
      · split
        · exact (ih _).trans hround
        · exact hround
    · rfl

end XferLoop

/-- What the handler leaves besides: an error is found before a message is begun, the interrupts are
enabled that the transfer waits for, and a read that is in progress has bytes left. -/
structure Watch (n : Nat) (t : Transfer) : Prop where
  failed : t.dev.msgErr ≠ 0 → t.dev.statusWrite = false ∧ t.dev.msgWriteIdx < n
  mask : t.dev.cmdErr = true ∨ t.dev.msgErr ≠ 0 ∨ t.hw.intrMask = Intr.master ∨
    (t.dev.msgWriteIdx = n ∧ t.hw.intrMask = { Intr.master with txEmpty := false })
  reading : t.dev.statusRead = true → 0 < t.dev.rxBufLen

/-- The transfer, in which the lengths are foreseen, goes on. -/
structure Ahead (f : Word → Word) (msgs ms : List I2cMsg) (s : Prop) (t : Transfer) : Prop where
  running : (t.foreseen ms).Running f ms s
  lengths : Lengths msgs ms t.dev
  watch : t.Watch ms.length

theorem Writes.foreseen {t u : Transfer} (h : Writes t u) (hmsgs : u.dev.msgs = t.dev.msgs) :
    Writes (t.foreseen ms) (u.foreseen ms) := by
  have hplace := h.readPlace
  simp only [Transfer.readPlace, ReadPlace.mk.injEq] at hplace
  obtain ⟨hidx, hbusy, hbuf, hlen⟩ := hplace
  refine ⟨?_, h.taken, h.conf, h.cmdErr, h.restartEn, h.completed, h.atStop, h.msgErr, h.written⟩
  simp only [Transfer.readPlace, Transfer.foreseen, DwI2cDev.foreseen, DwI2cDev.gap, DwI2cDev.msg,
    hidx, hbusy, hbuf, hlen, hmsgs]

/-- Writing commands agrees with the run whose lengths are known. -/
theorem Ahead.i2cDwXferMsg (hp : Plain ms) (hv : View f) (hb : Blind f) (h : t.Ahead f msgs ms s)
    (herr : t.dev.msgErr = 0) :
    t.i2cDwXferMsg.Ahead f msgs ms s ∧
      Writes (t.foreseen ms) (t.i2cDwXferMsg.foreseen ms) := by
  have hstart : XferLoop.Ahead f msgs ms s ⟨t, t.dev.txBuf, t.dev.txBufLen, false⟩ :=
    ⟨⟨h.running.live, h.running.sent, rfl, rfl, Or.inl hb⟩, h.lengths⟩
  obtain ⟨hrun, hdone, hfailed⟩ := hstart.run hp hv hb (t.dev.msg t.dev.msgWriteIdx).addr
    t.dev.msgs.length herr (Or.inr rfl) (by
      rw [h.lengths.length]
      exact Nat.le_add_left _ _)
  have hmsgs := XferLoop.run_msgs (t.dev.msg t.dev.msgWriteIdx).addr t.dev.msgs.length
    ⟨t, t.dev.txBuf, t.dev.txBufLen, false⟩
  have hwrites := i2cDwXferMsg_writes t
  have hforeseen : Writes (t.foreseen ms) (t.i2cDwXferMsg.foreseen ms) := hwrites.foreseen hmsgs
  have hreading := hwrites.readPlace
  simp only [readPlace, ReadPlace.mk.injEq] at hreading
  generalize hl : XferLoop.run (t.dev.msg t.dev.msgWriteIdx).addr t.dev.msgs.length
    ⟨t, t.dev.txBuf, t.dev.txBufLen, false⟩ = l at hrun hdone hfailed
  have hdev : t.i2cDwXferMsg.dev = l.t.dev := by
    rw [← hl]
    rfl
  have hhw : t.i2cDwXferMsg.hw = { l.t.tick.hw with intrMask := t.i2cDwXferMsg.hw.intrMask } := by
    rw [← hl]
    rfl
  have hmask : t.i2cDwXferMsg.hw.intrMask =
      if l.t.dev.msgErr ≠ 0 then Intr.none
      else if l.t.dev.msgWriteIdx = l.t.dev.msgs.length then { Intr.master with txEmpty := false }
      else Intr.master := by
    rw [← hl]
    rfl
  have hplace : (t.i2cDwXferMsg.foreseen ms).writePlace = (l.t.foreseen ms).writePlace := by
    simp only [writePlace, Transfer.foreseen, hdev]
  have htick := hrun.inv.live.tick
  refine ⟨⟨h.running.of_writes hforeseen ?_ ?_ ?_ ?_, ?_, ?_⟩, hforeseen⟩
  · have hlive : ∀ u : Transfer, u.dev = l.t.dev →
        u.hw = { l.t.tick.hw with intrMask := t.i2cDwXferMsg.hw.intrMask } →
          (u.foreseen ms).Live ms s := by
      intro u hdev hhw
      obtain ⟨dev, hw, sched, completed, atStop⟩ := u
      subst hdev hhw
      exact ⟨htick.length, htick.msg, htick.txDepth, htick.rxDepth, htick.sound.writeIntrMask _,
        htick.phase.imp_left (·.writeIntrMask _), htick.stopped, htick.stopsAtEnd⟩
    exact hlive _ hdev hhw
  · rw [hplace, show (t.i2cDwXferMsg.foreseen ms).hw.written = l.t.hw.written by
      show t.i2cDwXferMsg.hw.written = _
      rw [hhw]
      exact tick_written l.t]
    exact hrun.inv.sent
  · show t.i2cDwXferMsg.MaskOk
    simp only [MaskOk, hmask, hdev]
    split
    · exact ⟨rfl, rfl, fun _ => rfl⟩
    next hnone => split <;> exact ⟨rfl, rfl, fun hne => absurd hne hnone⟩
  · show t.i2cDwXferMsg.dev.statusWrite = true ∨ t.i2cDwXferMsg.dev.msgWriteIdx = ms.length ∨
      t.i2cDwXferMsg.dev.msgErr ≠ 0
    rw [hdev]
    by_cases hzero : l.t.dev.msgErr = 0
    · exact (hdone hzero).imp_right Or.inl
    · exact Or.inr (Or.inr hzero)
  · rw [hdev]
    exact hrun.lengths
  · refine ⟨?_, ?_, ?_⟩
    · rw [hdev]
      exact hfailed
    · rw [hmask, hdev, hrun.lengths.length]
      split
      next hne => exact Or.inr (Or.inl hne)
      next =>
        split
        next hidx => exact Or.inr (Or.inr (Or.inr ⟨hidx, rfl⟩))
        next => exact Or.inr (Or.inr (Or.inl rfl))
    · rw [hreading.2.1, hreading.2.2.2]
      exact h.watch.reading

end Transfer

end RealtekIpcam.I2c
