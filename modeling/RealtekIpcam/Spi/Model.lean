import RealtekIpcam.Lib.Words

/-!
# The DesignWare SPI controller and its driver

A word that the driver writes to the data register waits in the TX FIFO, goes
through the shift register, and a word comes back into the RX FIFO for it.  The
driver fills the TX FIFO and empties the RX FIFO by turns, in a polling loop or
from the interrupt, and must not write more than the RX FIFO can take.

All the while the controller goes on by itself.  A schedule says what it does
before each access of the driver; what cannot happen in a state does nothing, so
every schedule is a possible one.  `written`, `received` and `taken` record what
went through the data register and over the bus.
-/

namespace RealtekIpcam.Spi

abbrev Byte := BitVec 8

/-- `u16`, what the data register holds. -/
abbrev Half := BitVec 16

def EIO : Int := 5

/-- The bits of `DW_SPI_ISR` and `DW_SPI_IMR` that the driver uses: `SPI_INT_TXEI`,
`SPI_INT_TXOI`, `SPI_INT_RXUI` and `SPI_INT_RXOI`. -/
structure SpiInt where
  txei : Bool
  txoi : Bool
  rxui : Bool
  rxoi : Bool
  deriving DecidableEq

/-- The bits of both. -/
def SpiInt.and (a b : SpiInt) : SpiInt :=
  ⟨a.txei && b.txei, a.txoi && b.txoi, a.rxui && b.rxui, a.rxoi && b.rxoi⟩

/-- The controller.  `frame` is the number of bytes of a frame. -/
structure SpiHw where
  depth : Nat
  frame : Nat
  txFifo : List Half
  shift : Option Half
  rxFifo : List Half
  txOver : Bool
  rxOver : Bool
  rxUnder : Bool
  txLevel : Nat
  imr : SpiInt
  written : List Half
  received : List Half
  taken : List Half
  deriving DecidableEq

/-- What the controller does by itself. -/
inductive HwEvent where
  /-- A word goes from the TX FIFO into the shift register. -/
  | load
  /-- It was sent, and this word came for it. -/
  | shiftOut (word : Half)
  deriving DecidableEq

/-- The bits of a word that are in a frame of one byte, or of two. -/
def inFrame (frame : Nat) (word : Half) : Half :=
  if frame = 1 then (word.setWidth 8).setWidth 16 else word

namespace SpiHw

variable (hw : SpiHw)

def step (hw : SpiHw) : HwEvent → SpiHw
  | .load =>
    match hw.shift, hw.txFifo with
    | none, word :: txFifo => { hw with shift := some word, txFifo := txFifo }
    | _, _ => hw
  | .shiftOut word =>
    match hw.shift with
    | some _ =>
      let hw := { hw with shift := none, received := hw.received ++ [inFrame hw.frame word] }
      if hw.rxFifo.length < hw.depth then
        { hw with rxFifo := hw.rxFifo ++ [inFrame hw.frame word] }
      else { hw with rxOver := true }
    | none => hw

/-- A write of `DW_SPI_DR`. -/
def writeDr (word : Half) : SpiHw :=
  let hw := { hw with written := hw.written ++ [word] }
  if hw.txFifo.length < hw.depth then { hw with txFifo := hw.txFifo ++ [word] }
  else { hw with txOver := true }

/-- A read of `DW_SPI_DR`. -/
def readDr : Half × SpiHw :=
  match hw.rxFifo with
  | word :: rxFifo => (word, { hw with rxFifo := rxFifo, taken := hw.taken ++ [word] })
  | [] => (0, { hw with rxUnder := true, taken := hw.taken ++ [0] })

/-- `DW_SPI_ISR`. -/
def isr : SpiInt :=
  (SpiInt.mk (hw.txFifo.length ≤ hw.txLevel) hw.txOver hw.rxUnder hw.rxOver).and hw.imr

/-- `spi_reset_chip`: the controller is disabled, its interrupts are masked, and it
is enabled again, with its FIFOs empty. -/
def resetChip : SpiHw :=
  { hw with txFifo := [], shift := none, rxFifo := [], imr := ⟨false, false, false, false⟩ }

end SpiHw

/-- What the controller does before each access of the driver. -/
abbrev Schedule := List (List HwEvent)

/-- `struct dw_spi`, what a transfer uses of it.  A pointer into a buffer is its
offset, and the buffer of a null pointer is none. -/
structure DwSpi where
  fifoLen : UInt32
  nBytes : Nat
  len : UInt32
  txBuf : Option (Nat → Byte)
  tx : Nat
  txEnd : Nat
  rxBuf : Option (Nat → Byte)
  rx : Nat
  rxEnd : Nat

/-- The driver, the controller and its schedule; `finalized` is set by
`spi_finalize_current_transfer`, and `status` is that of the message. -/
structure Transfer where
  dws : DwSpi
  hw : SpiHw
  sched : Schedule
  finalized : Bool
  status : Int

/-- The word at an offset, on a little-endian processor. -/
def loadWord (nBytes : Nat) (buf : Nat → Byte) (off : Nat) : Half :=
  if nBytes = 1 then (buf off).setWidth 16 else buf (off + 1) ++ buf off

def storeWord (nBytes : Nat) (buf : Nat → Byte) (off : Nat) (word : Half) : Nat → Byte :=
  if nBytes = 1 then Function.update buf off (word.setWidth 8)
  else Function.update (Function.update buf off (word.setWidth 8)) (off + 1)
    ((word >>> 8).setWidth 8)

namespace Transfer

variable (s : Transfer)

/-- The controller goes on, as the schedule says. -/
def tick : Transfer :=
  { s with hw := (s.sched.headD []).foldl SpiHw.step s.hw, sched := s.sched.tail }

/-- `tx_max`, in the unsigned arithmetic of the source. -/
def txMax : Nat × Transfer :=
  let dws := s.dws
  let txLeft := Words.u32 (((dws.txEnd : Int) - dws.tx).tdiv dws.nBytes)
  let s := s.tick
  let txRoom := Words.u32 ((dws.fifoLen.toNat : Int) - s.hw.txFifo.length)
  let rxtxGap := Words.u32
    (((((dws.rxEnd : Int) - dws.rx) - ((dws.txEnd : Int) - dws.tx))).tdiv dws.nBytes)
  (min txLeft (min txRoom (Words.u32 ((dws.fifoLen.toNat : Int) - rxtxGap))), s)

def rxMax : Nat × Transfer :=
  let rxLeft := Words.u32 (((s.dws.rxEnd : Int) - s.dws.rx).tdiv s.dws.nBytes)
  let s := s.tick
  (min rxLeft s.hw.rxFifo.length, s)

/-- The word that `dw_writer` sends: without a buffer it is 0. -/
def txWord : Half :=
  match s.dws.txBuf with
  | some buf => loadWord s.dws.nBytes buf s.dws.tx
  | none => 0

/-- One round of the loop of `dw_writer`. -/
def writeRound : Transfer :=
  let t := s.tick
  { t with
    hw := t.hw.writeDr s.txWord
    dws := { t.dws with tx := t.dws.tx + t.dws.nBytes } }

/-- One round of the loop of `dw_reader`. -/
def readRound : Transfer :=
  let t := s.tick
  { t with
    hw := t.hw.readDr.2
    dws := { t.dws with
      rxBuf := t.dws.rxBuf.map fun buf => storeWord t.dws.nBytes buf t.dws.rx t.hw.readDr.1
      rx := t.dws.rx + t.dws.nBytes } }

def dwWriter : Transfer := writeRound^[s.txMax.1] s.txMax.2

def dwReader : Transfer := readRound^[s.rxMax.1] s.rxMax.2

/-- `spi_mask_intr` and `spi_umask_intr` of `SPI_INT_TXEI`, which read the mask and
write it. -/
def setTxei (on : Bool) : Transfer :=
  let s := s.tick.tick
  { s with hw := { s.hw with imr := { s.hw.imr with txei := on } } }

def intErrorStop : Transfer :=
  { s.tick with hw := s.tick.hw.resetChip, finalized := true, status := - EIO }

def interruptTransfer : Transfer :=
  let s := s.tick
  let irqStatus := s.hw.isr
  if irqStatus.txoi || irqStatus.rxoi || irqStatus.rxui then
    -- A read of `DW_SPI_ICR` clears them.
    let s := s.tick
    { s with hw := { s.hw with txOver := false, rxOver := false, rxUnder := false } }.intErrorStop
  else
    let s := s.dwReader
    if s.dws.rxEnd = s.dws.rx then { s.setTxei false with finalized := true }
    else if irqStatus.txei then (s.setTxei false).dwWriter.setTxei true
    else s

/-- `dw_spi_irq`, without DMA; `curMsg` says that there is a current message. -/
def dwSpiIrq (curMsg : Bool) : Transfer :=
  let s := s.tick
  if s.hw.isr = ⟨false, false, false, false⟩ then s
  else if !curMsg then s.setTxei false
  else s.interruptTransfer

/-- One round of the loop of `poll_transfer`. -/
def pollRound : Transfer := s.dwWriter.dwReader

/-- `poll_transfer`, with a bound on its rounds; it returns when all words are
read. -/
def pollTransfer : Nat → Transfer → Option Transfer
  | 0, _ => none
  | n + 1, s =>
    let s := s.pollRound
    if s.dws.rxEnd > s.dws.rx then pollTransfer n s else some s

end Transfer

/-- `dw_spi_transfer_one`, what it sets up for the transfer of a message.  In poll
mode all interrupts are masked.  `txLevel` is a `u16`. -/
def dwSpiTransferOne (fifoLen : UInt32) (nBytes : Nat) (len : UInt32)
    (txBuf rxBuf : Option (Nat → Byte)) (pollMode : Bool) : Transfer where
  dws :=
    { fifoLen := fifoLen
      nBytes := nBytes
      len := len
      txBuf := txBuf
      tx := 0
      txEnd := len.toNat
      rxBuf := rxBuf
      rx := 0
      rxEnd := len.toNat }
  hw :=
    { depth := fifoLen.toNat
      frame := nBytes
      txFifo := []
      shift := none
      rxFifo := []
      txOver := false
      rxOver := false
      rxUnder := false
      txLevel := min (fifoLen.toNat / 2 % 65536) (len.toNat / nBytes % 65536)
      imr := ⟨!pollMode, !pollMode, !pollMode, !pollMode⟩
      written := []
      received := []
      taken := [] }
  sched := []
  finalized := false
  status := 0

/-- What happens in a transfer: rounds of the polling loop or interrupts, during
which the controller goes on as the schedule says, and the controller between
them. -/
inductive SpiEvent where
  | poll (sched : Schedule)
  | irq (curMsg : Bool) (sched : Schedule)
  | hw (event : HwEvent)
  deriving DecidableEq

def spiStep (s : Transfer) : SpiEvent → Option Transfer
  | .poll sched => some { s with sched := sched }.pollRound
  | .irq curMsg sched => some ({ s with sched := sched }.dwSpiIrq curMsg)
  | .hw event => some { s with hw := s.hw.step event }

end RealtekIpcam.Spi
