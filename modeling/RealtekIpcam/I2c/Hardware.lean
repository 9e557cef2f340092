import Mathlib.Data.List.Basic

/-!
# The DesignWare I2C controller as a master

The controller has two FIFOs.  The driver writes commands to `IC_DATA_CMD`, which queue in the
TX FIFO; the controller fetches them one by one, and a read command brings a byte from the bus
into the RX FIFO, which the driver reads from `IC_DATA_CMD`.  A command with the stop bit ends
the transfer with a STOP.

All of this goes on while the driver runs.  `HwEvent` is what the controller can do by itself
between two accesses of the driver, and a schedule says what it does before each.  An event
that cannot happen in the state does nothing, so every schedule is a possible one.

`written`, `received` and `taken` record what went through `IC_DATA_CMD` and over the bus; no
function looks at them.
-/

namespace RealtekIpcam.I2c

abbrev Byte := BitVec 8

/-- `u32`. -/
abbrev Word := BitVec 32

/-- The bits of `IC_INTR_STAT` and `IC_INTR_MASK` that a master enables: `DW_IC_INTR_RX_FULL`,
`TX_EMPTY`, `TX_ABRT` and `STOP_DET`. -/
structure Intr where
  rxFull : Bool
  txEmpty : Bool
  txAbrt : Bool
  stopDet : Bool
  deriving DecidableEq

/-- `DW_IC_INTR_MASTER_MASK`. -/
def Intr.master : Intr := ⟨true, true, true, true⟩

def Intr.none : Intr := ⟨false, false, false, false⟩

/-- The bits of both. -/
def Intr.and (a b : Intr) : Intr :=
  ⟨a.rxFull && b.rxFull, a.txEmpty && b.txEmpty, a.txAbrt && b.txAbrt, a.stopDet && b.stopDet⟩

/-- What is built into a controller: the depths of its FIFOs, the level at which the TX FIFO
counts as empty, and whether it holds the bus when the TX FIFO is empty
(`IC_EMPTYFIFO_HOLD_MASTER_EN`). -/
structure HwConf where
  txDepth : Nat
  rxDepth : Nat
  txTl : Nat
  holdMaster : Bool
  deriving DecidableEq

/-- The state of the controller. -/
structure I2cHw where
  conf : HwConf
  txFifo : List Word
  rxFifo : List Byte
  /-- The command that is on the bus. -/
  busy : Option Word
  /-- There was a START, and no STOP since. -/
  started : Bool
  intrMask : Intr
  txAbrt : Bool
  stopDet : Bool
  rxOver : Bool
  txOver : Bool
  abortSource : Word
  /-- The command with the stop bit is done. -/
  stopped : Bool
  written : List Word
  received : List Byte
  taken : List Byte
  deriving DecidableEq

/-- Bit 8 of a command: it reads a byte. -/
def isRead (cmd : Word) : Bool := cmd.getLsbD 8

/-- Bit 9 of a command: a STOP follows. -/
def isStop (cmd : Word) : Bool := cmd.getLsbD 9

/-- What the controller does by itself. -/
inductive HwEvent where
  /-- It fetches a command from the TX FIFO. -/
  | fetch
  /-- It is done with the command; a read command brought this byte. -/
  | finish (byte : Byte)
  /-- The TX FIFO has run empty, and it does not hold the bus. -/
  | emptyStop
  /-- The slave does not answer, or the bus is lost: the FIFOs are flushed. -/
  | abort (source : Word)
  deriving DecidableEq

namespace I2cHw

variable (hw : I2cHw)

/-- A byte arrives.  It is lost when the RX FIFO is full. -/
def receive (byte : Byte) : I2cHw :=
  if hw.rxFifo.length < hw.conf.rxDepth then
    { hw with rxFifo := hw.rxFifo ++ [byte], received := hw.received ++ [byte] }
  else { hw with rxOver := true, received := hw.received ++ [byte] }

def step (hw : I2cHw) : HwEvent → I2cHw
  | .fetch =>
    match hw.busy, hw.txFifo with
    | none, cmd :: txFifo => { hw with busy := some cmd, txFifo := txFifo, started := true }
    | _, _ => hw
  | .finish byte =>
    match hw.busy with
    | some cmd =>
      let hw := { hw with busy := none }
      let hw := if isRead cmd then hw.receive byte else hw
      if isStop cmd then { hw with started := false, stopDet := true, stopped := true } else hw
    | none => hw
  | .emptyStop =>
    if hw.txFifo = [] ∧ hw.busy = none ∧ hw.started ∧ ¬ hw.conf.holdMaster then
      { hw with started := false, stopDet := true }
    else hw
  | .abort source =>
    if hw.busy ≠ none then
      { hw with
        txFifo := []
        rxFifo := []
        busy := none
        started := false
        txAbrt := true
        stopDet := true
        abortSource := source }
    else hw

/-- The raw interrupt status: the levels of the FIFOs, and the events that were not cleared. -/
def rawIntrStat : Intr :=
  ⟨!hw.rxFifo.isEmpty, hw.txFifo.length ≤ hw.conf.txTl, hw.txAbrt, hw.stopDet⟩

/-- A write of `IC_DATA_CMD`.  The command is lost when the TX FIFO is full, or held in reset by an
abort that was not cleared. -/
def writeDataCmd (cmd : Word) : I2cHw :=
  let hw := { hw with written := hw.written ++ [cmd] }
  if hw.txAbrt then hw
  else if hw.txFifo.length < hw.conf.txDepth then { hw with txFifo := hw.txFifo ++ [cmd] }
  else { hw with txOver := true }

/-- A read of `IC_DATA_CMD`.  An empty RX FIFO gives 0. -/
def readDataCmd : Byte × I2cHw :=
  match hw.rxFifo with
  | byte :: rxFifo => (byte, { hw with rxFifo := rxFifo, taken := hw.taken ++ [byte] })
  | [] => (0, { hw with taken := hw.taken ++ [0] })

end I2cHw

/-- What the controller does before each access of the driver. -/
abbrev Schedule := List (List HwEvent)

end RealtekIpcam.I2c
