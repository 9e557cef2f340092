import RealtekIpcam.I2c.Hardware

/-!
# The DesignWare I2C master driver

`i2c_dw_xfer` starts a transfer and sleeps; the interrupt handler then writes the commands of
all the messages and reads the bytes that arrive, as the FIFOs allow, and wakes it at the
STOP.  `Transfer` is the driver, the controller and the schedule together: every access of the
driver to a register lets the controller do what the schedule says (`Transfer.tick`).

A message's buffer is an object of its own, a function from offsets to bytes, so that an
offset beyond the message's length is memory outside of it.  A pointer into a buffer names the
message and the offset.
-/

namespace RealtekIpcam.I2c

def EIO : Int := 5
def EAGAIN : Int := 11
def EINVAL : Int := 22
def EREMOTEIO : Int := 121

def i2cSmbusBlockMax : Nat := 32

/-- `struct i2c_msg`, with the flags that the driver looks at: `I2C_M_RD`, `I2C_M_RECV_LEN` and
`I2C_CLIENT_PEC`. -/
structure I2cMsg where
  addr : Nat
  rd : Bool
  recvLen : Bool
  pec : Bool
  len : Nat
  buf : Nat → Byte

/-- A pointer into the buffer of a message. -/
structure BufPtr where
  msg : Nat
  off : Nat
  deriving DecidableEq

/-- `ptr + 1`. -/
def BufPtr.succ (ptr : BufPtr) : BufPtr := { ptr with off := ptr.off + 1 }

/-- `struct dw_i2c_dev`, what a transfer uses of it.  `statusWrite` and `statusRead` are the bits
`STATUS_WRITE_IN_PROGRESS` and `STATUS_READ_IN_PROGRESS` of `status`. -/
structure DwI2cDev where
  msgs : List I2cMsg
  msgWriteIdx : Nat
  msgReadIdx : Nat
  txBuf : BufPtr
  txBufLen : Nat
  rxBuf : BufPtr
  rxBufLen : Nat
  rxOutstanding : Int
  statusWrite : Bool
  statusRead : Bool
  msgErr : Int
  cmdErr : Bool
  abortSource : Word
  restartEn : Bool
  txFifoDepth : Nat
  rxFifoDepth : Nat

/-- `msgs[idx]`.  Beyond the end it is whatever lies there. -/
def DwI2cDev.msg (dev : DwI2cDev) (idx : Nat) : I2cMsg :=
  dev.msgs.getD idx ⟨0, false, false, false, 0, fun _ => 0⟩

/-- `*ptr`. -/
def DwI2cDev.load (dev : DwI2cDev) (ptr : BufPtr) : Byte := (dev.msg ptr.msg).buf ptr.off

/-- A byte of a buffer replaced. -/
def I2cMsg.store (msg : I2cMsg) (off : Nat) (byte : Byte) : I2cMsg :=
  { msg with buf := Function.update msg.buf off byte }

/-- `*ptr = byte`. -/
def DwI2cDev.store (dev : DwI2cDev) (ptr : BufPtr) (byte : Byte) : DwI2cDev :=
  { dev with msgs := dev.msgs.modify ptr.msg (·.store ptr.off byte) }

/-- A transfer: the driver, the controller, and what the controller will do by itself.
`completed` is `cmd_complete`; `atStop` records that it was completed by the STOP of the last
command. -/
structure Transfer where
  dev : DwI2cDev
  hw : I2cHw
  sched : Schedule
  completed : Bool
  atStop : Bool

namespace Transfer

variable (t : Transfer)

/-! ## Registers -/

/-- The controller goes on, as the schedule says. -/
def tick : Transfer :=
  { t with hw := (t.sched.headD []).foldl I2cHw.step t.hw, sched := t.sched.tail }

/-- `DW_IC_TXFLR`. -/
def readTxflr : Nat × Transfer := (t.tick.hw.txFifo.length, t.tick)

/-- `DW_IC_RXFLR`. -/
def readRxflr : Nat × Transfer := (t.tick.hw.rxFifo.length, t.tick)

/-- A read of `DW_IC_DATA_CMD`. -/
def readDataCmd : Byte × Transfer :=
  (t.tick.hw.readDataCmd.1, { t.tick with hw := t.tick.hw.readDataCmd.2 })

/-- A write of `DW_IC_DATA_CMD`. -/
def writeDataCmd (cmd : Word) : Transfer := { t.tick with hw := t.tick.hw.writeDataCmd cmd }

/-- A write of `DW_IC_INTR_MASK`. -/
def writeIntrMask (mask : Intr) : Transfer :=
  { t.tick with hw := { t.tick.hw with intrMask := mask } }

/-- `DW_IC_INTR_STAT`. -/
def readIntrStat : Intr × Transfer := (t.tick.hw.rawIntrStat.and t.tick.hw.intrMask, t.tick)

/-- A read of `DW_IC_CLR_TX_ABRT`, after `DW_IC_TX_ABRT_SOURCE` was read. -/
def clrTxAbrt : Transfer :=
  let t := t.tick
  let t := { t with dev := { t.dev with abortSource := t.hw.abortSource } }.tick
  { t with hw := { t.hw with txAbrt := false, abortSource := 0 } }

/-- A read of `DW_IC_CLR_STOP_DET`. -/
def clrStopDet : Transfer := { t.tick with hw := { t.tick.hw with stopDet := false } }

/-! ## Writing commands -/

/-- The local variables of `i2c_dw_xfer_msg` in its inner loop. -/
structure Pump where
  t : Transfer
  buf : BufPtr
  bufLen : Nat
  needRestart : Bool
  txLimit : Int
  rxLimit : Int

/-- The command of one round: its stop bit (9) and restart bit (10). -/
def Pump.cmd (p : Pump) : Word :=
  let dev := p.t.dev
  let stop : Word :=
    if dev.msgWriteIdx + 1 = dev.msgs.length ∧ p.bufLen = 1 ∧
      ¬ (dev.msg dev.msgWriteIdx).recvLen then
      0x200
    else 0
  if p.needRestart then stop ||| 0x400 else stop

/-- One round of the inner loop of `i2c_dw_xfer_msg`; `false` when it is left. -/
def Pump.round (p : Pump) : Pump × Bool :=
  if p.bufLen > 0 ∧ p.txLimit > 0 ∧ p.rxLimit > 0 then
    let dev := p.t.dev
    if (dev.msg dev.msgWriteIdx).rd then
      -- The RX FIFO must not overrun; the restart is forgotten all the same.
      if dev.rxOutstanding ≥ dev.rxFifoDepth then ({ p with needRestart := false }, false)
      else
        let t := p.t.writeDataCmd (p.cmd ||| 0x100)
        ({ p with
          t := { t with dev := { t.dev with rxOutstanding := t.dev.rxOutstanding + 1 } }
          bufLen := p.bufLen - 1
          needRestart := false
          txLimit := p.txLimit - 1
          rxLimit := p.rxLimit - 1 }, true)
    else
      let t := p.t.writeDataCmd (p.cmd ||| (dev.load p.buf).setWidth 32)
      ({ p with
        t := t
        buf := p.buf.succ
        bufLen := p.bufLen - 1
        needRestart := false
        txLimit := p.txLimit - 1 }, true)
  else (p, false)

/-- The inner loop, which has a round for each byte at most. -/
def Pump.run : Nat → Pump → Pump
  | 0, p => p
  | n + 1, p => if p.round.2 then Pump.run n p.round.1 else p.round.1

/-- The local variables of `i2c_dw_xfer_msg` in its outer loop. -/
structure XferLoop where
  t : Transfer
  buf : BufPtr
  bufLen : Nat
  needRestart : Bool

/-- The start of a round of the outer loop: a new message, or the rest of the one in progress. -/
def XferLoop.begin (l : XferLoop) : XferLoop :=
  let dev := l.t.dev
  if dev.statusWrite then l
  else
    { l with
      buf := ⟨dev.msgWriteIdx, 0⟩
      bufLen := (dev.msg dev.msgWriteIdx).len
      needRestart := l.needRestart || (dev.restartEn && decide (dev.msgWriteIdx > 0)) }

/-- The levels of the FIFOs are read. -/
def XferLoop.limits (l : XferLoop) : Pump :=
  let (txflr, t) := l.t.readTxflr
  let (rxflr, t) := t.readRxflr
  { t := t
    buf := l.buf
    bufLen := l.bufLen
    needRestart := l.needRestart
    txLimit := t.dev.txFifoDepth - txflr
    rxLimit := t.dev.rxFifoDepth - rxflr }

/-- One round of the outer loop for a message with the right address; `false` when it is left. -/
def XferLoop.round (l : XferLoop) : XferLoop × Bool :=
  let p := l.begin.limits
  let p := p.run p.bufLen
  let t : Transfer := { p.t with dev := { p.t.dev with txBuf := p.buf, txBufLen := p.bufLen } }
  if p.bufLen > 0 ∨ (t.dev.msg t.dev.msgWriteIdx).recvLen then
    (⟨{ t with dev := { t.dev with statusWrite := true } }, p.buf, p.bufLen, p.needRestart⟩, false)
  else
    (⟨{ t with dev := { t.dev with
        statusWrite := false
        msgWriteIdx := t.dev.msgWriteIdx + 1 } }, p.buf, p.bufLen, p.needRestart⟩, true)

/-- The outer loop, which has a round for each message at most. -/
def XferLoop.run (addr : Nat) : Nat → XferLoop → XferLoop
  | 0, l => l
  | n + 1, l =>
    if l.t.dev.msgWriteIdx < l.t.dev.msgs.length then
      if (l.t.dev.msg l.t.dev.msgWriteIdx).addr ≠ addr then
        { l with t := { l.t with dev := { l.t.dev with msgErr := -EINVAL } } }
      else if l.round.2 then XferLoop.run addr n l.round.1 else l.round.1
    else l

def i2cDwXferMsg : Transfer :=
  let addr := (t.dev.msg t.dev.msgWriteIdx).addr
  let l := XferLoop.run addr t.dev.msgs.length ⟨t, t.dev.txBuf, t.dev.txBufLen, false⟩
  let t := l.t
  let mask : Intr :=
    if t.dev.msgWriteIdx = t.dev.msgs.length then { Intr.master with txEmpty := false }
    else Intr.master
  let mask := if t.dev.msgErr ≠ 0 then Intr.none else mask
  t.writeIntrMask mask

/-! ## Reading bytes -/

/-- `i2c_dw_recv_len`, with `len` a `u8`.  It returns the new length. -/
def i2cDwRecvLen (len : Byte) : Byte × Transfer :=
  let dev := t.dev
  let idx := dev.msgReadIdx
  let len := len + if (dev.msg idx).pec then 2 else 1
  let outstanding : Byte := BitVec.ofInt 8 dev.rxOutstanding
  let txBufLen := len.toNat - (if outstanding < len then outstanding else len).toNat
  (len, { t with dev := { dev with
    txBufLen := txBufLen
    msgs := dev.msgs.modify idx fun msg => { msg with len := len.toNat, recvLen := false } } })

/-- The local variables of `i2c_dw_read` in its inner loop. -/
structure Drain where
  t : Transfer
  len : Nat
  buf : BufPtr

/-- One round of the inner loop of `i2c_dw_read`. -/
def Drain.round (d : Drain) : Drain :=
  let (tmp, t) := d.t.readDataCmd
  let idx := t.dev.msgReadIdx
  -- The length byte must be a valid value.
  let (len, t) :=
    if (t.dev.msg idx).recvLen ∧ tmp.toNat ≤ i2cSmbusBlockMax ∧ tmp.toNat > 0 then
      let (len, t) := t.i2cDwRecvLen tmp
      (len.toNat, t)
    else (d.len, t)
  let dev := t.dev.store d.buf tmp
  { t := { t with dev := { dev with rxOutstanding := dev.rxOutstanding - 1 } }
    len := len - 1
    buf := d.buf.succ }

/-- The inner loop, with `rxValid` counting down. -/
def Drain.run : Nat → Drain → Drain
  | 0, d => d
  | rxValid + 1, d => if d.len > 0 then Drain.run rxValid d.round else d

/-- One round of the outer loop of `i2c_dw_read` for a read message; `false` when it is left. -/
def readRound : Transfer × Bool :=
  let dev := t.dev
  let len := if dev.statusRead then dev.rxBufLen else (dev.msg dev.msgReadIdx).len
  let buf := if dev.statusRead then dev.rxBuf else ⟨dev.msgReadIdx, 0⟩
  let (rxValid, t) := t.readRxflr
  let d := Drain.run rxValid ⟨t, len, buf⟩
  let t := d.t
  if d.len > 0 then
    ({ t with dev := { t.dev with statusRead := true, rxBufLen := d.len, rxBuf := d.buf } }, false)
  else
    ({ t with dev := { t.dev with statusRead := false, msgReadIdx := t.dev.msgReadIdx + 1 } }, true)

/-- The outer loop of `i2c_dw_read`, which has a round for each message at most. -/
def readLoop : Nat → Transfer → Transfer
  | 0, t => t
  | n + 1, t =>
    if t.dev.msgReadIdx < t.dev.msgs.length then
      if (t.dev.msg t.dev.msgReadIdx).rd then
        if t.readRound.2 then readLoop n t.readRound.1 else t.readRound.1
      else readLoop n { t with dev := { t.dev with msgReadIdx := t.dev.msgReadIdx + 1 } }
    else t

def i2cDwRead : Transfer := readLoop t.dev.msgs.length t

/-! ## The interrupt and the transfer -/

/-- `i2c_dw_read_clear_intrbits`. -/
def readClearIntrbits : Intr × Transfer :=
  let (stat, t) := t.readIntrStat
  let t := if stat.txAbrt then t.clrTxAbrt else t
  let t := if stat.stopDet then t.clrStopDet else t
  (stat, t)

/-- `i2c_dw_irq_handler_master`. -/
def irqHandlerMaster : Transfer :=
  let atStop := t.tick.hw.stopped
  let (stat, t) := t.readClearIntrbits
  if stat.txAbrt then
    let t :=
      { t with dev := { t.dev with cmdErr := true, statusWrite := false, statusRead := false } }
    { t.writeIntrMask Intr.none with completed := true }
  else
    let t := if stat.rxFull then t.i2cDwRead else t
    let t := if stat.txEmpty then t.i2cDwXferMsg else t
    if stat.stopDet then { t with completed := true, atStop := t.atStop || atStop }
    else if t.dev.msgErr ≠ 0 then { t with completed := true }
    else t

/-- `i2c_dw_handle_tx_abort`, with the bits `DW_IC_TX_ABRT_NOACK`, `DW_IC_TX_ARB_LOST` and
`DW_IC_TX_ABRT_GCALL_READ` of the abort source. -/
def handleTxAbort (source : Word) : Int :=
  if source &&& 0x1f ≠ 0 then - EREMOTEIO
  else if source &&& 0x1000 ≠ 0 then -EAGAIN
  else if source &&& 0x20 ≠ 0 then -EINVAL
  else - EIO

/-- `i2c_dw_isr`, which reads two more registers and returns when nothing is pending.  The
handler does nothing then either. -/
def i2cDwIsr : Transfer := t.tick.tick.irqHandlerMaster

/-- The end of `i2c_dw_xfer`, after it was woken. -/
def i2cDwXferResult : Int :=
  if t.dev.msgErr ≠ 0 then t.dev.msgErr
  else if ¬ t.dev.cmdErr ∧ ¬ t.dev.statusWrite ∧ ¬ t.dev.statusRead then t.dev.msgs.length
  else if t.dev.cmdErr then handleTxAbort t.dev.abortSource
  else - EIO

end Transfer

/-- The beginning of `i2c_dw_xfer`, and `i2c_dw_xfer_init`: the driver starts over, and the
controller is disabled, which empties it, and enabled again. -/
def i2cDwXferInit (conf : HwConf) (restartEn : Bool) (msgs : List I2cMsg) : Transfer where
  dev :=
    { msgs := msgs
      msgWriteIdx := 0
      msgReadIdx := 0
      txBuf := ⟨0, 0⟩
      txBufLen := 0
      rxBuf := ⟨0, 0⟩
      rxBufLen := 0
      rxOutstanding := 0
      statusWrite := false
      statusRead := false
      msgErr := 0
      cmdErr := false
      abortSource := 0
      restartEn := restartEn
      txFifoDepth := conf.txDepth
      rxFifoDepth := conf.rxDepth }
  hw :=
    { conf := conf
      txFifo := []
      rxFifo := []
      busy := none
      started := false
      intrMask := Intr.master
      txAbrt := false
      stopDet := false
      rxOver := false
      txOver := false
      abortSource := 0
      stopped := false
      written := []
      received := []
      taken := [] }
  sched := []
  completed := false
  atStop := false

/-- What happens until the transfer is over: interrupts, during which the controller goes on as the
schedule says, and the controller between them. -/
inductive MasterEvent where
  | irq (sched : Schedule)
  | hw (event : HwEvent)
  deriving DecidableEq

def masterStep (t : Transfer) : MasterEvent → Option Transfer
  | .irq sched => some { t with sched := sched }.i2cDwIsr
  | .hw event => some { t with hw := t.hw.step event }

end RealtekIpcam.I2c
