import RealtekIpcam.Lib.CircBuf
import RealtekIpcam.Lib.Runs

/-!
# A running 8250 port

The port operations of the 8250 driver, as functions on a port together with its chip.  A chip is
any device whose interrupt enable and line control registers are storage and whose other registers
answer as they like: `Chip` states just that.  Reading a register may change the chip, so an
operation passes the chip along from access to access.

The serial core and the tty layer are not in the source.  What they decide during an operation (what
a change of CTS means, whether a break or a character is taken by sysrq) is a parameter.  Every
operation runs under the port lock and is one step here.

Left out are runtime power management, which the operations only notify, the rs485 emulation, whose
initialisation is commented out in the source so that `em485` stays null, and DMA, whose stubs in
`8250.h` make `serial8250_do_startup` drop `up->dma`.  A driver's own `set_divisor` and `set_mctrl`
are left at the defaults.  Two bits that the source tests have no definition in it, `UART_NATSEMI`
and `UART_BUG_TXRACE`; the port says whether they are set.
-/

namespace RealtekIpcam.Serial

/-! ## Registers -/

/-- The registers of an 8250, by offset; the name is that of the register that is written, or read,
while the divisor latch is not accessed. -/
inductive Reg where
  /-- `UART_RX`, `UART_TX`, `UART_DLL`. -/
  | data
  /-- `UART_IER`, `UART_DLM`. -/
  | ier
  /-- `UART_IIR`, `UART_FCR`. -/
  | iir
  | lcr
  | mcr
  | lsr
  | msr
  | scr
  deriving DecidableEq

def ierMsi : BitVec 8 := 0x08#8
def ierRlsi : BitVec 8 := 0x04#8
def ierThri : BitVec 8 := 0x02#8
def ierRdi : BitVec 8 := 0x01#8
def ierUue : BitVec 8 := 0x40#8
def ierRtoie : BitVec 8 := 0x10#8

def iirNoInt : BitVec 8 := 0x01#8
def iirId : BitVec 8 := 0x0e#8
def iirThri : BitVec 8 := 0x02#8

def fcrEnableFifo : BitVec 8 := 0x01#8
def fcrClearRcvr : BitVec 8 := 0x02#8
def fcrClearXmit : BitVec 8 := 0x04#8
def fcrTriggerMask : BitVec 8 := 0xc0#8
def fcrTrigger1 : BitVec 8 := 0x00#8

def lcrDlab : BitVec 8 := 0x80#8
def lcrSpar : BitVec 8 := 0x20#8
def lcrEpar : BitVec 8 := 0x10#8
def lcrParity : BitVec 8 := 0x08#8
def lcrStop : BitVec 8 := 0x04#8
def lcrWlen5 : BitVec 8 := 0x00#8
def lcrWlen6 : BitVec 8 := 0x01#8
def lcrWlen7 : BitVec 8 := 0x02#8
def lcrWlen8 : BitVec 8 := 0x03#8

def mcrAfe : BitVec 8 := 0x20#8
def mcrLoop : BitVec 8 := 0x10#8
def mcrOut2 : BitVec 8 := 0x08#8
def mcrOut1 : BitVec 8 := 0x04#8
def mcrRts : BitVec 8 := 0x02#8
def mcrDtr : BitVec 8 := 0x01#8

def lsrFifoe : BitVec 8 := 0x80#8
def lsrTemt : BitVec 8 := 0x40#8
def lsrThre : BitVec 8 := 0x20#8
def lsrBi : BitVec 8 := 0x10#8
def lsrFe : BitVec 8 := 0x08#8
def lsrPe : BitVec 8 := 0x04#8
def lsrOe : BitVec 8 := 0x02#8
def lsrDr : BitVec 8 := 0x01#8
def lsrBrkErrorBits : BitVec 8 := 0x1e#8
def lsrSaveFlags : BitVec 8 := lsrBrkErrorBits
def bothEmpty : BitVec 8 := lsrTemt ||| lsrThre

def msrCts : BitVec 8 := 0x10#8
def msrTeri : BitVec 8 := 0x04#8
def msrDdsr : BitVec 8 := 0x02#8
def msrDcts : BitVec 8 := 0x01#8
def msrAnyDelta : BitVec 8 := 0x0f#8
def msrSaveFlags : BitVec 8 := msrAnyDelta

/-- Some bit of a mask is set. -/
def Any {w : Nat} (v mask : BitVec w) : Prop := v &&& mask ≠ 0#w

instance {w : Nat} (v mask : BitVec w) : Decidable (Any v mask) := instDecidableNot

/-- The divisor latch is accessed in place of the data and interrupt enable registers. -/
def Latched (lcr : BitVec 8) : Prop := Any lcr lcrDlab

instance (lcr : BitVec 8) : Decidable (Latched lcr) := instDecidableNot

/-- A line control setting, which never selects the divisor latch. -/
abbrev LineControl := { v : BitVec 8 // ¬ Latched v }

/-- **A chip**: its interrupt enable and line control registers keep what is written, unless the
write goes to the divisor latch. -/
structure Chip where
  State : Type
  /-- The interrupt enable register. -/
  ier : State → BitVec 8
  /-- The line control register. -/
  lcr : State → BitVec 8
  /-- Reading a register: its value, and the chip after it. -/
  read : State → Reg → BitVec 8 × State
  write : State → Reg → BitVec 8 → State
  read_ier : ∀ c, ¬ Latched (lcr c) → (read c .ier).1 = ier c
  ier_read : ∀ c r, ier (read c r).2 = ier c
  lcr_read : ∀ c r, lcr (read c r).2 = lcr c
  ier_write : ∀ c r v, ier (write c r v) = if r = .ier ∧ ¬ Latched (lcr c) then v else ier c
  lcr_write : ∀ c r v, lcr (write c r v) = if r = .lcr then v else lcr c

/-! ## Ports -/

/-- `struct uart_icount`, as far as the driver counts. -/
structure Icount where
  rx : Nat := 0
  tx : Nat := 0
  rng : Nat := 0
  dsr : Nat := 0
  brk : Nat := 0
  parity : Nat := 0
  frame : Nat := 0
  overrun : Nat := 0
  deriving DecidableEq

/-- The flag of a received character. -/
inductive TtyFlag where
  | normal
  | brk
  | parity
  | frame
  deriving DecidableEq

/-- `UART_XMIT_SIZE` is `2 ^ xmitShift`, a page. -/
def xmitShift : Nat := 12

/-- `struct uart_8250_port` of an open port, with its `uart_port`, transmit ring and tty. -/
structure Port where
  irq : Nat
  flags : BitVec 64
  /-- `status`. -/
  upstat : BitVec 32
  quirks : BitVec 8
  fifosize : Nat
  readStatusMask : BitVec 8
  ignoreStatusMask : BitVec 8
  /-- `x_char`, 0 for none. -/
  xChar : BitVec 8
  /-- `tty->stopped`. -/
  stopped : Bool
  hwStopped : Bool
  mctrl : BitVec 32
  icount : Icount
  xmit : CircBuf (BitVec 8) xmitShift
  capabilities : BitVec 32
  natsemi : Bool
  bugs : BitVec 16
  bugTxrace : Bool
  fifoBug : Bool
  txLoadsz : BitVec 32
  fcr : BitVec 8
  ier : BitVec 8
  lcr : LineControl
  mcr : BitVec 8
  mcrMask : BitVec 8
  mcrForce : BitVec 8
  canary : BitVec 8
  lsrSavedFlags : BitVec 8
  msrSavedFlags : BitVec 8

/-- `uart_tx_stopped`. -/
def Port.txStopped (p : Port) : Prop := p.stopped = true ∨ p.hwStopped = true

instance (p : Port) : Decidable p.txStopped := instDecidableOr

/-- `uart_circ_empty` of the transmit ring. -/
def Port.circEmpty (p : Port) : Prop := p.xmit.head = p.xmit.tail

instance (p : Port) : Decidable p.circEmpty := instDecidableEqNat _ _

def upfFourport : BitVec 64 := 1#64 <<< 1
def upfHardppsCd : BitVec 64 := 1#64 <<< 11
def upfBuggyUart : BitVec 64 := 1#64 <<< 14
def upfNoThreTest : BitVec 64 := 1#64 <<< 19
def upfConsFlow : BitVec 64 := 1#64 <<< 23
def upfBugThre : BitVec 64 := 1#64 <<< 26

def upstatAutorts : BitVec 32 := 1#32 <<< 2
def upstatAutocts : BitVec 32 := 1#32 <<< 3

def upqNoTxenTest : BitVec 8 := 1#8 <<< 0

def capFifo : BitVec 32 := 1#32 <<< 8
def capAfe : BitVec 32 := 1#32 <<< 11
def capUue : BitVec 32 := 1#32 <<< 12
def capRtoie : BitVec 32 := 1#32 <<< 13
def capRpm : BitVec 32 := 1#32 <<< 15

def bugTxen : BitVec 16 := 1#16 <<< 1
def bugNomsr : BitVec 16 := 1#16 <<< 2
def bugThre : BitVec 16 := 1#16 <<< 3
def bugParity : BitVec 16 := 1#16 <<< 4

/-- A byte written to `UART_TX`, with where it comes from. -/
inductive Sent where
  | xChar (ch : BitVec 8)
  /-- A byte of the ring, and whether transmission was stopped. -/
  | ring (ch : BitVec 8) (stopped : Bool)
  | console (ch : BitVec 8)
  deriving DecidableEq

def Sent.byte : Sent → BitVec 8
  | .xChar ch => ch
  | .ring ch _ => ch
  | .console ch => ch

/-- A character handed to the tty layer by `uart_insert_char`. -/
structure Received where
  status : BitVec 8
  ch : BitVec 8
  flag : TtyFlag
  deriving DecidableEq

/-- What `uart_handle_cts_change` does about a change of CTS. -/
inductive CtsChange where
  | none
  /-- `hw_stopped` is cleared and the transmitter started. -/
  | start
  /-- `hw_stopped` is set and the transmitter stopped. -/
  | stop
  deriving DecidableEq

/-- What the serial core and the tty layer decide. -/
structure SerialTty where
  ctsChange : Port → Bool → CtsChange
  /-- The return value of `uart_handle_break`. -/
  handleBreak : Port → Bool
  /-- The return value of `uart_prepare_sysrq_char`. -/
  prepareSysrqChar : Port → BitVec 8 → Bool

/-- A port and its chip, with what has been sent and received. -/
structure Sys (C : Chip) where
  port : Port
  chip : C.State
  sent : List Sent := []
  received : List Received := []

namespace Sys

variable {C : Chip} (s : Sys C)

def serialIn (r : Reg) : BitVec 8 × Sys C :=
  ((C.read s.chip r).1, { s with chip := (C.read s.chip r).2 })

def serialOut (r : Reg) (v : BitVec 8) : Sys C := { s with chip := C.write s.chip r v }

/-- A write to `UART_TX`. -/
def transmit (x : Sent) : Sys C :=
  { s.serialOut .data x.byte with sent := s.sent ++ [x] }

/-- A register that is read for its side effect. -/
def discard (r : Reg) : Sys C := (s.serialIn r).2

/-- The port with other fields. -/
def setPort (p : Port) : Sys C := { s with port := p }

/-- `up->ier` is changed and written to the chip. -/
def setIer (ier : BitVec 8) : Sys C := (s.setPort { s.port with ier := ier }).serialOut .ier ier

/-! ## The transmitter -/

/-- `serial8250_set_THRI`. -/
def setThri : Sys C :=
  if Any s.port.ier ierThri then s else s.setIer (s.port.ier ||| ierThri)

/-- `serial8250_clear_THRI`. -/
def clearThri : Sys C :=
  if Any s.port.ier ierThri then s.setIer (s.port.ier &&& ~~~ierThri) else s

/-- `serial8250_start_tx`. -/
def startTx : Sys C := s.setThri

/-- `serial8250_stop_tx`, which is `__stop_tx`. -/
def stopTx : Sys C := s.clearThri

/-- `uart_xchar_out` to `UART_TX`. -/
def xcharOut : Sys C :=
  let s := s.transmit (.xChar s.port.xChar)
  s.setPort { s.port with
    icount := { s.port.icount with tx := s.port.icount.tx + 1 }
    xChar := 0#8 }

/-- One byte from the ring to the chip. -/
def sendFront : Sys C :=
  let s := s.transmit (.ring s.port.xmit.front (decide s.port.txStopped))
  let s := if s.port.bugTxrace then s.discard .scr else s
  s.setPort { s.port with
    xmit := s.port.xmit.get
    icount := { s.port.icount with tx := s.port.icount.tx + 1 } }

/-- The copying loop of `serial8250_tx_chars`.  The ring empties before the fuel runs out. -/
def txLoop : Nat → BitVec 32 → Sys C → Sys C
  | 0, _, s => s
  | fuel + 1, count, s =>
    let s := s.sendFront
    if s.port.circEmpty then s
    else if 0 < (count - 1#32).toInt then txLoop fuel (count - 1#32) s
    else s

/-- `serial8250_tx_chars`. -/
def txChars : Sys C :=
  if s.port.xChar ≠ 0#8 then s.xcharOut
  else if s.port.txStopped then s.stopTx
  else if s.port.circEmpty then s.stopTx
  else
    let s := txLoop s.port.xmit.pending s.port.txLoadsz s
    if s.port.circEmpty ∧ ¬ Any s.port.capabilities capRpm then s.stopTx else s

/-! ## The receiver and the modem lines -/

/-- `serial8250_stop_rx`. -/
def stopRx : Sys C :=
  (s.setPort { s.port with readStatusMask := s.port.readStatusMask &&& ~~~lsrDr }).setIer
    (s.port.ier &&& ~~~(ierRlsi ||| ierRdi))

/-- `serial8250_disable_ms`. -/
def disableMs : Sys C :=
  if Any s.port.bugs bugNomsr then s else s.setIer (s.port.ier &&& ~~~ierMsi)

/-- `serial8250_enable_ms`. -/
def enableMs : Sys C :=
  if Any s.port.bugs bugNomsr then s else s.setIer (s.port.ier ||| ierMsi)

/-- `serial_8250_overrun_backoff_work`. -/
def overrunBackoffWork : Sys C :=
  (s.setPort { s.port with readStatusMask := s.port.readStatusMask ||| lsrDr }).setIer
    (s.port.ier ||| (ierRlsi ||| ierRdi))

variable (tty : SerialTty)

/-- The accounting of errors in `serial8250_read_char`: the counters, the bits that are left after
masking and the flag; and whether `uart_handle_break` took the character. -/
def accountErrors (p : Port) (lsr : BitVec 8) : Icount × BitVec 8 × TtyFlag × Bool :=
  if Any lsr lsrBrkErrorBits then
    let clearFePe := lsr &&& ~~~(lsrFe ||| lsrPe)
    let counted :=
      if Any lsr lsrBi then ({ p.icount with brk := p.icount.brk + 1 }, clearFePe)
      else if Any lsr lsrPe then ({ p.icount with parity := p.icount.parity + 1 }, lsr)
      else if Any lsr lsrFe then ({ p.icount with frame := p.icount.frame + 1 }, lsr)
      else (p.icount, lsr)
    if Any lsr lsrBi ∧ tty.handleBreak p = true then (counted.1, counted.2, .normal, true)
    else
      let icount :=
        if Any counted.2 lsrOe then { counted.1 with overrun := counted.1.overrun + 1 }
        else counted.1
      let lsr := counted.2 &&& p.readStatusMask
      let flag :=
        if Any lsr lsrBi then TtyFlag.brk
        else if Any lsr lsrPe then .parity
        else if Any lsr lsrFe then .frame
        else .normal
      (icount, lsr, flag, false)
  else (p.icount, lsr, .normal, false)

/-- `serial8250_read_char`. -/
def readChar (lsr : BitVec 8) : Sys C :=
  let read := if Any lsr lsrDr then s.serialIn .data else (0#8, s)
  let ch := read.1
  let s := read.2
  let icount := { s.port.icount with rx := s.port.icount.rx + 1 }
  let lsr := lsr ||| s.port.lsrSavedFlags
  let p := { s.port with icount := icount, lsrSavedFlags := 0#8 }
  let account := accountErrors tty p lsr
  let s := s.setPort { p with icount := account.1 }
  if account.2.2.2 = true then s
  else if tty.prepareSysrqChar s.port ch = true then s
  else { s with received := s.received ++ [⟨account.2.1, ch, account.2.2.1⟩] }

/-- The loop of `serial8250_rx_chars`, with the rounds that are left after this one. -/
def rxLoop : Nat → BitVec 8 → Sys C → BitVec 8 × Sys C
  | 0, lsr, s => (lsr, s.readChar tty lsr)
  | n + 1, lsr, s =>
    let read := (s.readChar tty lsr).serialIn .lsr
    if Any read.1 (lsrDr ||| lsrBi) then rxLoop n read.1 read.2 else read

/-- `serial8250_rx_chars`: the bits of LSR that it leaves. -/
def rxChars (lsr : BitVec 8) : BitVec 8 × Sys C := rxLoop tty 255 lsr s

/-- The effect of `uart_handle_cts_change`. -/
def applyCts : CtsChange → Sys C
  | .none => s
  | .start => (s.setPort { s.port with hwStopped := false }).startTx
  | .stop => (s.setPort { s.port with hwStopped := true }).stopTx

/-- The counters of `serial8250_modem_status`. -/
def countModem (p : Port) (status : BitVec 8) : Port :=
  let icount := p.icount
  let icount := if Any status msrTeri then { icount with rng := icount.rng + 1 } else icount
  let icount := if Any status msrDdsr then { icount with dsr := icount.dsr + 1 } else icount
  { p with icount := icount }

/-- `serial8250_modem_status`. -/
def modemStatus : BitVec 8 × Sys C :=
  let read := s.serialIn .msr
  let s := read.2
  let status := read.1 ||| s.port.msrSavedFlags
  let s := s.setPort { s.port with msrSavedFlags := 0#8 }
  if Any status msrAnyDelta ∧ Any s.port.ier ierMsi then
    let s := s.setPort (countModem s.port status)
    (status,
      if Any status msrDcts then s.applyCts (tty.ctsChange s.port (decide (Any status msrCts)))
      else s)
  else (status, s)

/-! ## Interrupts and timers -/

/-- A stopped port with automatic flow control leaves what it receives in the chip. -/
def skipRx (p : Port) (status : BitVec 8) : Prop :=
  ¬ Any status (lsrFifoe ||| lsrBrkErrorBits) ∧
    Any p.upstat (upstatAutocts ||| upstatAutorts) ∧ ¬ Any p.readStatusMask lsrDr

instance (p : Port) (status : BitVec 8) : Decidable (skipRx p status) := instDecidableAnd

/-- The part of `serial8250_handle_irq` that receives: the status it goes on with. -/
def irqReceive : BitVec 8 × Sys C :=
  let read := s.serialIn .lsr
  if Any read.1 (lsrDr ||| lsrBi) ∧ ¬ skipRx s.port read.1 then read.2.rxChars tty read.1
  else read

/-- `serial8250_handle_irq`. -/
def handleIrq (iir : BitVec 8) : Int × Sys C :=
  if Any iir iirNoInt then (0, s)
  else
    let received := s.irqReceive tty
    let s := (received.2.modemStatus tty).2
    (1, if Any received.1 lsrThre ∧ Any s.port.ier ierThri then s.txChars else s)

/-- The interrupt identification that `serial8250_backup_timeout` goes by: a transmitter that waits
for an interrupt and is empty counts as one that has interrupted. -/
def backupIir (p : Port) (iir lsr : BitVec 8) : BitVec 8 :=
  if Any iir iirNoInt ∧ Any p.ier ierThri ∧ (¬ p.circEmpty ∨ p.xChar ≠ 0#8) ∧ Any lsr lsrThre then
    iir &&& ~~~(iirId ||| iirNoInt) ||| iirThri
  else iir

/-- The bits that a read of LSR clears are kept in `lsr_saved_flags`. -/
def saveLsr (lsr : BitVec 8) : Sys C :=
  s.setPort { s.port with
    lsrSavedFlags := s.port.lsrSavedFlags ||| (lsr &&& lsrSaveFlags) }

/-- The bits that a read of MSR clears are kept in `msr_saved_flags`. -/
def saveMsr (msr : BitVec 8) : Sys C :=
  s.setPort { s.port with
    msrSavedFlags := s.port.msrSavedFlags ||| (msr &&& msrSaveFlags) }

/-- The part of `serial8250_backup_timeout` between saving and restoring the interrupt enables. -/
def backupService : Sys C :=
  let iir := s.serialIn .iir
  let lsr := iir.2.serialIn .lsr
  let s := lsr.2
  let s := s.saveLsr lsr.1
  if Any (backupIir s.port iir.1 lsr.1) iirNoInt then s else s.txChars

/-- All interrupts are masked, after their enables have been read. -/
def maskIer : Sys C := (s.serialIn .ier).2.serialOut .ier 0#8

/-- `serial8250_backup_timeout`. -/
def backupTimeout : Sys C :=
  if s.port.irq ≠ 0 then s.maskIer.backupService.serialOut .ier (s.serialIn .ier).1
  else s.backupService

/-! ## The console -/

/-- The wait for the transmitter in `wait_for_xmitr`, with the tries that are left. -/
def waitLsr (bits : BitVec 8) : Nat → Sys C → Sys C
  | 0, s => s
  | tmout + 1, s =>
    let status := s.serialIn .lsr
    let s := status.2
    let s := s.saveLsr status.1
    if status.1 &&& bits = bits then s else waitLsr bits tmout s

/-- The wait for flow control in `wait_for_xmitr`, with the tries that are left. -/
def waitCts : Nat → Sys C → Sys C
  | 0, s => s
  | tmout + 1, s =>
    let msr := s.serialIn .msr
    let s := msr.2
    let s := s.saveMsr msr.1
    if Any msr.1 msrCts then s else waitCts tmout s

def waitForXmitr (bits : BitVec 8) : Sys C :=
  let s := waitLsr bits 10000 s
  if Any s.port.flags upfConsFlow then waitCts 1000000 s else s

/-- `serial8250_console_putchar`. -/
def consolePutchar (ch : BitVec 8) : Sys C :=
  (s.waitForXmitr lsrThre).transmit (.console ch)

/-- `serial8250_do_set_divisor`, with `default_serial_dl_write`. -/
def setDivisor (quot : BitVec 16) : Sys C :=
  let s := s.serialOut .lcr (if s.port.natsemi then 0xe0#8 else s.port.lcr.1 ||| lcrDlab)
  (s.serialOut .data (quot.setWidth 8)).serialOut .ier ((quot >>> 8).setWidth 8)

/-- `serial8250_console_restore`, with the divisor for the console's baud rate. -/
def consoleRestore (quot : BitVec 16) : Sys C :=
  let s := s.setDivisor quot
  (s.serialOut .lcr s.port.lcr.1).serialOut .mcr (s.port.mcr ||| mcrDtr ||| mcrRts)

/-- The test of the scratch register in `serial8250_console_write`. -/
def checkCanary (quot : BitVec 16) : Sys C :=
  if s.port.canary ≠ 0#8 then
    let scr := s.serialIn .scr
    if s.port.canary ≠ scr.1 then
      let s := scr.2.consoleRestore quot
      s.setPort { s.port with canary := 0#8 }
    else scr.2
  else s

/-- The part of `serial8250_console_write` between saving and restoring the interrupt enables: the
characters are those that `uart_console_write` hands on. -/
def consoleService (quot : BitVec 16) (chars : List (BitVec 8)) : Sys C :=
  (chars.foldl consolePutchar (s.checkCanary quot)).waitForXmitr bothEmpty

/-- `serial8250_console_write`. -/
def consoleWrite (quot : BitVec 16) (chars : List (BitVec 8)) : Sys C :=
  let s := (s.maskIer.consoleService quot chars).serialOut .ier (s.serialIn .ier).1
  if s.port.msrSavedFlags ≠ 0#8 then (s.modemStatus tty).2 else s

end Sys

/-! ## Line settings -/

def cSize : BitVec 32 := 0x30#32
def cs5 : BitVec 32 := 0x00#32
def cs6 : BitVec 32 := 0x10#32
def cs7 : BitVec 32 := 0x20#32
def cStopb : BitVec 32 := 0x40#32
def cRead : BitVec 32 := 0x80#32
def parEnb : BitVec 32 := 0x100#32
def parOdd : BitVec 32 := 0x200#32
def cLocal : BitVec 32 := 0x800#32
def cmsPar : BitVec 32 := 0x40000000#32
def crtscts : BitVec 32 := 0x80000000#32

def ignBrk : BitVec 32 := 0x1#32
def brkInt : BitVec 32 := 0x2#32
def ignPar : BitVec 32 := 0x4#32
def parMrk : BitVec 32 := 0x8#32
def inpck : BitVec 32 := 0x10#32

def tiocmDtr : BitVec 32 := 0x2#32
def tiocmRts : BitVec 32 := 0x4#32
def tiocmOut1 : BitVec 32 := 0x2000#32
def tiocmOut2 : BitVec 32 := 0x4000#32
def tiocmLoop : BitVec 32 := 0x8000#32

/-- `struct ktermios`, with the baud rate that the serial core finds for it and its divisor. -/
structure Termios where
  cflag : BitVec 32
  iflag : BitVec 32
  baud : Nat
  quot : BitVec 16

/-- A mask that is or-ed in under a condition. -/
def orIf (c : Prop) [Decidable c] (v mask : BitVec 8) : BitVec 8 := if c then v ||| mask else v

/-- `serial8250_TIOCM_to_MCR`. -/
def tiocmToMcr (tiocm : BitVec 32) : BitVec 8 :=
  let mcr := orIf (Any tiocm tiocmRts) 0#8 mcrRts
  let mcr := orIf (Any tiocm tiocmDtr) mcr mcrDtr
  let mcr := orIf (Any tiocm tiocmOut1) mcr mcrOut1
  let mcr := orIf (Any tiocm tiocmOut2) mcr mcrOut2
  orIf (Any tiocm tiocmLoop) mcr mcrLoop

/-- The word length of a line setting. -/
def wordLength (cflag : BitVec 32) : BitVec 8 :=
  if cflag &&& cSize = cs5 then lcrWlen5
  else if cflag &&& cSize = cs6 then lcrWlen6
  else if cflag &&& cSize = cs7 then lcrWlen7
  else lcrWlen8

/-- `serial8250_compute_lcr`, without what it notes about buggy FIFOs. -/
def computeLcr (cflag : BitVec 32) : BitVec 8 :=
  let cval := orIf (Any cflag cStopb) (wordLength cflag) lcrStop
  let cval := orIf (Any cflag parEnb) cval lcrParity
  let cval := orIf (¬ Any cflag parOdd) cval lcrEpar
  orIf (Any cflag cmsPar) cval lcrSpar

theorem orIf_unlatched {c : Prop} [Decidable c] {v mask : BitVec 8} (hv : ¬ Latched v)
    (hmask : ¬ Latched mask) : ¬ Latched (orIf c v mask) := by
  have hv' : v &&& lcrDlab = 0#8 := Decidable.not_not.mp hv
  have hmask' : mask &&& lcrDlab = 0#8 := Decidable.not_not.mp hmask
  rw [orIf]
  split
  · intro h
    refine h ?_
    rw [BitVec.and_comm, BitVec.and_or_distrib_left, BitVec.and_comm, hv', BitVec.and_comm, hmask']
    rfl
  · exact hv

theorem wordLength_unlatched (cflag : BitVec 32) : ¬ Latched (wordLength cflag) := by
  rw [wordLength]
  split
  · decide
  · split
    · decide
    · split <;> decide

theorem computeLcr_unlatched (cflag : BitVec 32) : ¬ Latched (computeLcr cflag) :=
  orIf_unlatched (orIf_unlatched (orIf_unlatched (orIf_unlatched (wordLength_unlatched cflag)
    (by decide)) (by decide)) (by decide)) (by decide)

/-- `UART_ENABLE_MS`. -/
def enableMsWanted (p : Port) (cflag : BitVec 32) : Prop :=
  Any p.flags upfHardppsCd ∨ Any cflag crtscts ∨ ¬ Any cflag cLocal

instance (p : Port) (cflag : BitVec 32) : Decidable (enableMsWanted p cflag) := instDecidableOr

/-- What `serial8250_do_set_termios` makes of the port. -/
def Port.withTermios (p : Port) (t : Termios) : Port :=
  let fifoBug := p.fifoBug || decide (Any t.cflag parEnb ∧ Any p.bugs bugParity)
  let fcr :=
    if Any p.capabilities capFifo ∧ 1 < p.fifosize ∧ (t.baud < 2400 ∨ fifoBug = true) then
      p.fcr &&& ~~~fcrTriggerMask ||| fcrTrigger1
    else p.fcr
  let mcr :=
    if Any p.capabilities capAfe then orIf (Any t.cflag crtscts) (p.mcr &&& ~~~mcrAfe) mcrAfe
    else p.mcr
  let readStatusMask := orIf (Any t.iflag inpck) (lsrOe ||| lsrThre ||| lsrDr) (lsrFe ||| lsrPe)
  let readStatusMask := orIf (Any t.iflag (ignBrk ||| brkInt ||| parMrk)) readStatusMask lsrBi
  let ignoreStatusMask := orIf (Any t.iflag ignPar) 0#8 (lsrPe ||| lsrFe)
  let ignoreStatusMask := orIf (Any t.iflag ignBrk) ignoreStatusMask lsrBi
  let ignoreStatusMask :=
    orIf (Any t.iflag ignBrk ∧ Any t.iflag ignPar) ignoreStatusMask lsrOe
  let ignoreStatusMask := orIf (¬ Any t.cflag cRead) ignoreStatusMask lsrDr
  let ier := p.ier &&& ~~~ierMsi
  let ier := orIf (¬ Any p.bugs bugNomsr ∧ enableMsWanted p t.cflag) ier ierMsi
  let ier := orIf (Any p.capabilities capUue) ier ierUue
  let ier := orIf (Any p.capabilities capRtoie) ier ierRtoie
  { p with
    fifoBug := fifoBug
    lcr := ⟨computeLcr t.cflag, computeLcr_unlatched t.cflag⟩
    fcr := fcr
    mcr := mcr
    readStatusMask := readStatusMask
    ignoreStatusMask := ignoreStatusMask
    ier := ier }

namespace Sys

variable {C : Chip} (s : Sys C)

/-- `serial8250_do_set_mctrl`. -/
def setMctrl : Sys C :=
  s.serialOut .mcr (tiocmToMcr s.port.mctrl &&& s.port.mcrMask ||| s.port.mcrForce ||| s.port.mcr)

/-- The write of the FIFO control register in `serial8250_do_set_termios`, for a port that is not a
16750. -/
def setFcr : Sys C :=
  let s := if Any s.port.fcr fcrEnableFifo then s.serialOut .iir fcrEnableFifo else s
  s.serialOut .iir s.port.fcr

/-- `serial8250_do_set_termios`. -/
def setTermios (t : Termios) : Sys C :=
  let s := ((s.setPort (s.port.withTermios t)).setIer (s.port.withTermios t).ier).setDivisor t.quot
  ((s.serialOut .lcr s.port.lcr.1).setFcr.setMctrl).discard .data

/-! ## Opening the port -/

/-- `serial8250_clear_fifos`. -/
def clearFifos : Sys C :=
  if Any s.port.capabilities capFifo then
    ((s.serialOut .iir fcrEnableFifo).serialOut .iir
      (fcrEnableFifo ||| fcrClearRcvr ||| fcrClearXmit)).serialOut .iir 0#8
  else s

/-- Reading the registers that clear on read. -/
def clearInterrupts : Sys C := (((s.discard .lsr).discard .data).discard .iir).discard .msr

/-- The entry of `uart_config` for the type of the port. -/
structure Config where
  fifoSize : Nat
  txLoadsz : BitVec 32
  flags : BitVec 32

/-- The defaults that `serial8250_do_startup` takes from the type of the port. -/
def withConfig (config : Config) : Sys C :=
  s.setPort { s.port with
    fifosize := if s.port.fifosize = 0 then config.fifoSize else s.port.fifosize
    txLoadsz := if s.port.txLoadsz = 0#32 then config.txLoadsz else s.port.txLoadsz
    capabilities := if s.port.capabilities = 0#32 then config.flags else s.port.capabilities
    mcr := 0#8 }

/-- The test for a transmitter that does not reassert its interrupt. -/
def testThre : Sys C :=
  if s.port.irq ≠ 0 ∧ ¬ Any s.port.flags upfNoThreTest then
    let s := (s.waitForXmitr lsrThre).serialOut .ier ierThri
    let iir1 := (s.discard .lcr).serialIn .iir
    let s := ((iir1.2.serialOut .ier 0#8).serialOut .ier ierThri).discard .lcr
    let iir := s.serialIn .iir
    let s := iir.2.serialOut .ier 0#8
    if (¬ Any iir1.1 iirNoInt ∧ Any iir.1 iirNoInt) ∨ Any s.port.flags upfBugThre then
      s.setPort { s.port with bugs := s.port.bugs ||| bugThre }
    else s
  else s

/-- The modem control lines of a port that is opened. -/
def raiseLines : Sys C :=
  let mctrl :=
    if Any s.port.flags upfFourport then
      if s.port.irq = 0 then s.port.mctrl ||| tiocmOut1 else s.port.mctrl
    else if s.port.irq ≠ 0 then s.port.mctrl ||| tiocmOut2
    else s.port.mctrl
  (s.setPort { s.port with mctrl := mctrl }).setMctrl

/-- The test whether enabling the transmit interrupt raises it. -/
def testTxen : Sys C :=
  if Any s.port.quirks upqNoTxenTest then s
  else
    let lsr := (s.serialOut .ier ierThri).serialIn .lsr
    let iir := lsr.2.serialIn .iir
    let s := iir.2.serialOut .ier 0#8
    let bugs :=
      if Any lsr.1 lsrTemt ∧ Any iir.1 iirNoInt then s.port.bugs ||| bugTxen
      else s.port.bugs &&& ~~~bugTxen
    s.setPort { s.port with bugs := bugs }

def ENODEV : Int := 19

/-- The safety check of LSR: whether there is a chip. -/
def checkLsr : Bool × Sys C :=
  if Any s.port.flags upfBuggyUart then (true, s)
  else (decide ((s.serialIn .lsr).1 ≠ 0xff#8), (s.serialIn .lsr).2)

/-- The part of `serial8250_do_startup` after the interrupt has been set up. -/
def initUart : Sys C :=
  let s := s.testThre.serialOut .lcr lcrWlen8
  let s := s.raiseLines.testTxen.clearInterrupts
  s.setPort { s.port with
    lsrSavedFlags := 0#8
    msrSavedFlags := 0#8
    ier := ierRlsi ||| ierRdi }

/-- `serial8250_do_startup`, where `setupIrq` is what `up->ops->setup_irq` returns. -/
def doStartup (config : Config) (setupIrq : Int) : Int × Sys C :=
  let check := (s.withConfig config).clearFifos.clearInterrupts.checkLsr
  if check.1 = false then (-ENODEV, check.2)
  else if setupIrq ≠ 0 then (setupIrq, check.2)
  else (0, check.2.initUart)

end Sys

/-! ## An open port with an idle chip -/

/-- A chip that is idle: its transmitter is empty and no interrupt is pending. -/
structure IdleChip where
  ier : BitVec 8
  lcr : BitVec 8

def IdleChip.value (c : IdleChip) : Reg → BitVec 8
  | .ier => c.ier
  | .iir => iirNoInt
  | .lcr => c.lcr
  | .lsr => bothEmpty
  | .msr => msrCts
  | _ => 0#8

def idleChip : Chip where
  State := IdleChip
  ier := IdleChip.ier
  lcr := IdleChip.lcr
  read := fun c r => (c.value r, c)
  write := fun c r v =>
    { ier := if r = .ier ∧ ¬ Latched c.lcr then v else c.ier
      lcr := if r = .lcr then v else c.lcr }
  read_ier := fun _ _ => rfl
  ier_read := fun _ _ => rfl
  lcr_read := fun _ _ => rfl
  ier_write := fun _ _ _ => rfl
  lcr_write := fun _ _ _ => rfl

/-- A tty layer that does nothing of its own accord. -/
def quietTty : SerialTty where
  ctsChange := fun _ _ => .none
  handleBreak := fun _ => false
  prepareSysrqChar := fun _ _ => false

/-- A closed port with an interrupt and a FIFO. -/
def closedPort : Port where
  irq := 31
  flags := 0#64
  upstat := 0#32
  quirks := 0#8
  fifosize := 32
  readStatusMask := 0#8
  ignoreStatusMask := 0#8
  xChar := 0#8
  stopped := false
  hwStopped := false
  mctrl := tiocmDtr ||| tiocmRts
  icount := {}
  xmit :=
    { buf := fun _ => 0#8, head := 0, tail := 0, head_lt := by decide, tail_lt := by decide }
  capabilities := capFifo
  natsemi := false
  bugs := bugThre
  bugTxrace := false
  fifoBug := false
  txLoadsz := 32#32
  fcr := 0x81#8
  ier := 0#8
  lcr := ⟨0#8, by decide⟩
  mcr := 0#8
  mcrMask := 0xff#8
  mcrForce := 0#8
  canary := 0#8
  lsrSavedFlags := 0#8
  msrSavedFlags := 0#8

/-- The port with an idle chip. -/
def closedSys : Sys idleChip where
  port := closedPort
  chip := { ier := 0#8, lcr := 0#8 }

def config16550a : Sys.Config := { fifoSize := 32, txLoadsz := 1#32, flags := capFifo }

/-- 115200 baud, eight bits, no modem control. -/
def rawTermios : Termios where
  cflag := cSize ||| cLocal ||| cRead
  iflag := 0#32
  baud := 115200
  quot := 13#16

/-- The port after opening it and setting its line. -/
def openSys : Sys idleChip := ((closedSys.doStartup config16550a 0).2).setTermios rawTermios

end RealtekIpcam.Serial
