import RealtekIpcam.I2c.Hardware
import Mathlib.Logic.Function.Iterate

/-!
# The DesignWare I2C controller as a slave

On the bus the master writes bytes, asks for bytes and stops.  The controller
raises RX_FULL, RD_REQ and STOP_DET for these; a byte waits in the RX FIFO, and
at a request the bus is held until the driver has written the answer.  The
handler may run late, and finds several conditions raised.  Which kinds there
are is all that it sees, so the model keeps them as one list, in the order of
the bus, and the status bits are read off it.

The handler tells the slave's backend what happens by events.  The backend is a
parameter: a function from its state, the event and the value to its next state
and the value it leaves there.
-/

namespace RealtekIpcam.I2c

/-! ## The bus -/

/-- What happens on the bus.  `first` says that it is the first byte, or the
first request, of its transaction; the controller does not see that. -/
inductive Item where
  /-- A START with the address of the slave. -/
  | start
  /-- The master writes a byte. -/
  | byte (first : Bool) (val : Byte)
  /-- The master asks for a byte. -/
  | request (first : Bool)
  | stop
  deriving DecidableEq

def Item.isByte : Item → Bool
  | .byte _ _ => true
  | _ => false

def Item.isRequest : Item → Bool
  | .request _ => true
  | _ => false

def Item.isStop : Item → Bool
  | .stop => true
  | _ => false

/-- The controller: what it has raised and the driver has not cleared, and what
is still to come on the bus.  `sent` are the answers. -/
structure SlaveHw where
  enabled : Bool
  rxDepth : Nat
  pending : List Item
  todo : List Item
  activity : Bool
  held : Bool
  sent : List Byte
  deriving DecidableEq

namespace SlaveHw

variable (hw : SlaveHw)

/-- The bus goes on by one item, unless it is held: at a request, or because the
RX FIFO is full (`DW_IC_CON_RX_FIFO_FULL_HLD_CTRL`). -/
def step : SlaveHw :=
  if hw.held then hw
  else
    match hw.todo with
    | [] => hw
    | .start :: todo => { hw with todo := todo, activity := true }
    | .byte first val :: todo =>
      if hw.pending.countP Item.isByte < hw.rxDepth then
        { hw with todo := todo, pending := hw.pending ++ [.byte first val] }
      else hw
    | .request first :: todo =>
      { hw with todo := todo, pending := hw.pending ++ [.request first], held := true }
    | .stop :: todo =>
      { hw with todo := todo, pending := hw.pending ++ [.stop], activity := false }

/-- A read of `IC_DATA_CMD`: the oldest byte. -/
def readDataCmd : Byte × SlaveHw :=
  match hw.pending.find? Item.isByte with
  | some (.byte _ val) => (val, { hw with pending := hw.pending.eraseP Item.isByte })
  | _ => (0, hw)

/-- A write of `IC_DATA_CMD` lets the bus go. -/
def writeDataCmd (val : Byte) : SlaveHw := { hw with held := false, sent := hw.sent ++ [val] }

/-- A read of `IC_CLR_RD_REQ`. -/
def clrRdReq : SlaveHw :=
  { hw with pending := hw.pending.filter fun item => !item.isRequest }

/-- A read of `IC_CLR_STOP_DET`.  There is one bit for any number of stops. -/
def clrStopDet : SlaveHw := { hw with pending := hw.pending.filter fun item => !item.isStop }

end SlaveHw

/-! ## The driver -/

/-- `enum i2c_slave_event`.  The byte that `*val` holds at `I2C_SLAVE_WRITE_RECEIVED`
is part of it. -/
inductive I2cSlaveEvent where
  | readRequested
  | writeRequested
  | readProcessed
  | writeReceived (val : Byte)
  | stop
  deriving DecidableEq

/-- The driver with a slave, what the controller will do by itself before each
access, and the events that were delivered. -/
structure Slave (β : Type) where
  hw : SlaveHw
  sched : List Nat
  slave : Bool
  statusWrite : Bool
  statusRead : Bool
  backend : β
  events : List I2cSlaveEvent

/-- The bits that the handler uses: `DW_IC_INTR_RX_FULL`, `RD_REQ` and `STOP_DET`. -/
structure SlaveStat where
  rxFull : Bool
  rdReq : Bool
  stopDet : Bool
  deriving DecidableEq

namespace Slave

variable {β : Type} (cb : β → I2cSlaveEvent → Byte → β × Byte) (s : Slave β)

/-- The bus goes on, as the schedule says. -/
def tick : Slave β :=
  { s with hw := SlaveHw.step^[s.sched.headD 0] s.hw, sched := s.sched.tail }

/-- `i2c_slave_event`.  It returns what the backend leaves in `*val`. -/
def slaveEvent (event : I2cSlaveEvent) (val : Byte) : Byte × Slave β :=
  ((cb s.backend event val).2,
    { s with backend := (cb s.backend event val).1, events := s.events ++ [event] })

/-- `DW_IC_INTR_STAT`. -/
def intrStat : SlaveStat :=
  ⟨s.hw.pending.any Item.isByte, s.hw.pending.any Item.isRequest, s.hw.pending.any Item.isStop⟩

/-- `i2c_dw_read_clear_intrbits_slave`; of the bits that it clears only
`STOP_DET` is looked at. -/
def readClearIntrbitsSlave : SlaveStat × Slave β :=
  let s := s.tick
  let stat := s.intrStat
  let s := if stat.stopDet then { s.tick with hw := s.tick.hw.clrStopDet } else s
  (stat, s)

/-- The loop that reads the RX FIFO, as often as there can be bytes at most. -/
def drainRx : Nat → Byte → Slave β → Byte × Slave β
  | 0, val, s => (val, s)
  | n + 1, _, s =>
    let s := s.tick
    let tmp := s.hw.readDataCmd.1
    let s := { s with hw := s.hw.readDataCmd.2 }
    let (val, s) := s.slaveEvent cb (.writeReceived tmp) tmp
    -- `DW_IC_STATUS_RFNE`.
    let s := s.tick
    if s.hw.pending.any Item.isByte then drainRx n val s else (val, s)

/-- The handling of `DW_IC_INTR_RX_FULL`. -/
def handleRxFull (val : Byte) : Byte × Slave β :=
  let (val, s) :=
    if s.statusWrite then (val, s)
    else { s with statusWrite := true, statusRead := false }.slaveEvent cb .writeRequested val
  s.drainRx cb (s.hw.pending.length + s.hw.todo.length) val

/-- The handling of `DW_IC_INTR_RD_REQ`. -/
def handleRdReq (val : Byte) : Byte × Slave β :=
  let s := { s.tick with hw := s.tick.hw.clrRdReq }
  let (val, s) :=
    if s.statusRead then s.slaveEvent cb .readProcessed val
    else
      let (val, s) := s.slaveEvent cb .readRequested val
      (val, { s with statusRead := true, statusWrite := false })
  (val, { s.tick with hw := s.tick.hw.writeDataCmd val })

/-- `i2c_dw_irq_handler_slave` after the status was read. -/
def handleStat (stat : SlaveStat) (slaveActivity : Bool) : Slave β :=
  let (val, s) := if stat.rxFull then s.handleRxFull cb 0 else (0, s)
  let (val, s) := if stat.rdReq && slaveActivity then s.handleRdReq cb val else (val, s)
  if stat.stopDet then (s.slaveEvent cb .stop val).2 else s

/-- The beginning of `i2c_dw_irq_handler_slave`: it reads `DW_IC_ENABLE`,
`DW_IC_RAW_INTR_STAT` and `DW_IC_STATUS`.  `other` says that a raw bit is set
that the handler does nothing about. -/
def proceeds (other : Bool) : Bool :=
  s.tick.hw.enabled && (other || !s.tick.tick.hw.pending.isEmpty) && s.slave

def i2cDwIrqHandlerSlave (other : Bool) : Slave β :=
  let ready := s.tick.tick.tick
  if s.proceeds other then
    let (stat, s) := ready.readClearIntrbitsSlave
    s.handleStat cb stat ready.hw.activity
  else ready

end Slave

/-- After `i2c_dw_reg_slave`, with all of the bus to come. -/
def i2cDwRegSlave {β : Type} (rxDepth : Nat) (todo : List Item) (backend : β) : Slave β where
  hw :=
    { enabled := true
      rxDepth := rxDepth
      pending := []
      todo := todo
      activity := false
      held := false
      sent := [] }
  sched := []
  slave := true
  statusWrite := false
  statusRead := false
  backend := backend
  events := []

/-- The bus goes on, and the handler runs now and then, during which the bus goes
on too. -/
inductive SlaveRunEvent where
  | irq (other : Bool) (sched : List Nat)
  | bus
  deriving DecidableEq

def slaveStep {β : Type} (cb : β → I2cSlaveEvent → Byte → β × Byte) (s : Slave β) :
    SlaveRunEvent → Option (Slave β)
  | .irq other sched => some ({ s with sched := sched }.i2cDwIrqHandlerSlave cb other)
  | .bus => some { s with hw := s.hw.step }

end RealtekIpcam.I2c
