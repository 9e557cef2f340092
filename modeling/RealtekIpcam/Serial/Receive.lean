import RealtekIpcam.Serial.IerShadow
import RealtekIpcam.Serial.RxAccounting

/-!
# Receive accounting

The functions of the driver that read LSR or RX on a started port, run in any order while the line
delivers characters between any two accesses to the chip.  Each holds the port lock, so it is one
step; `dw8250_handle_irq` releases the lock between its receive timeout and `serial8250_handle_irq`,
and is a run of two of them (`dwHandleIrq_run`).  DMA is not used and sysrq is off.

`accounted_run_iff` says that the driver accounts for the receiver in every state that a run reaches
exactly if every call is lossless.  A call can lose in five ways.  The receive timeout drops the
status it reads, and the byte that arrives before its read of RX.  The interrupt handler drops an
overrun that it reads when there is no character; it does not count the framing error of a character
that has a parity error too; and an overrun is lost, in any call, while another one is held.
-/

namespace RealtekIpcam.Serial

open Losses Runs

/-! ## The calls -/

def iirRxTimeout : BitVec 8 := 0x0c#8
def iirBusy : BitVec 8 := 0x07#8

namespace Sys

variable {C : Chip} (s : Sys C) (tty : SerialTty)

/-- What `dw8250_handle_irq` does under the port lock about a receive timeout: RX is read when there
seems to be nothing in it. -/
def dwTimeout : Sys C :=
  let status := s.serialIn .lsr
  if Any status.1 (lsrDr ||| lsrBi) then status.2 else status.2.discard .data

/-- `dw8250_handle_irq` without DMA, where `readUsr` is the effect of reading the USR. -/
def dwHandleIrq (readUsr : C.State → C.State) : Int × Sys C :=
  let iir := s.serialIn .iir
  let s := iir.2
  let s := if iir.1 &&& 0x3f#8 = iirRxTimeout then s.dwTimeout else s
  let handled := s.handleIrq tty iir.1
  let s := handled.2
  if handled.1 ≠ 0 then (1, s)
  else if iir.1 &&& iirBusy = iirBusy then (1, { s with chip := readUsr s.chip })
  else (0, s)

/-- `serial8250_tx_empty`: whether it returns `TIOCSER_TEMT`. -/
def txEmpty : Bool × Sys C :=
  let lsr := s.serialIn .lsr
  (decide (lsr.1 &&& bothEmpty = bothEmpty), lsr.2.saveLsr lsr.1)

end Sys

/-- A call that holds the port lock, or a step of its surroundings. -/
inductive RxCall (C : Chip) where
  /-- The receive timeout in `dw8250_handle_irq`. -/
  | dwTimeout
  /-- `serial8250_handle_irq`, from `dw8250_handle_irq` or from elsewhere. -/
  | handleIrq (iir : BitVec 8)
  | txEmpty
  | waitForXmitr (bits : BitVec 8)
  | backupTimeout
  /-- A register beside RX and LSR is read. -/
  | readOther (r : Reg)
  /-- The serial core and the tty layer change the port, but not what is counted and held. -/
  | core (f : Port → Port)
  /-- The rest of the chip changes, and the line delivers something else from now on. -/
  | hardware (c : C.State) (schedule : List (List Arrival))

namespace RxCall

variable {C : Chip} (tty : SerialTty)

def step (s : Sys (receiving C)) : RxCall C → Option (Sys (receiving C))
  | dwTimeout => some s.dwTimeout
  | handleIrq iir => some (s.handleIrq tty iir).2
  | txEmpty => some s.txEmpty.2
  | waitForXmitr bits => some (s.waitForXmitr bits)
  | backupTimeout => some s.backupTimeout
  | readOther r => if r ≠ .data ∧ r ≠ .lsr then some (s.discard r) else none
  | core f =>
    if (f s.port).lsrSavedFlags = s.port.lsrSavedFlags ∧ (f s.port).icount = s.port.icount then
      some (s.setPort (f s.port))
    else none
  | hardware c schedule =>
    if C.lcr c = C.lcr s.chip.1 then
      some { s with chip := (c, { s.chip.2 with schedule := schedule }) }
    else none

end RxCall

/-- No indication is lost while characters are taken from the chip, from one with the status `lsr`
on: `n` more rounds read LSR again, and the first that finds no character finds no overrun. -/
def Drains (C : Chip) : Nat → BitVec 8 → BitVec 8 → C.State → Prop
  | 0, saved, lsr, _ => Counts saved lsr
  | n + 1, saved, lsr, c =>
    let status := C.read (C.read c .data).2 .lsr
    Counts saved lsr ∧
      if Any status.1 (lsrDr ||| lsrBi) then Drains C n 0#8 status.1 status.2
      else ¬ Any status.1 lsrBrkErrorBits

/-- No overrun is lost while LSR is read up to `n` times until it shows `bits`. -/
def Polls (C : Chip) (bits : BitVec 8) : Nat → BitVec 8 → C.State → Prop
  | 0, _, _ => True
  | n + 1, saved, c =>
    let status := C.read c .lsr
    Keeps saved status.1 ∧
      (status.1 &&& bits ≠ bits →
        Polls C bits n (saved ||| (status.1 &&& lsrSaveFlags)) status.2)

/-- The chip at which `serial8250_backup_timeout` reads LSR. -/
def Sys.backupChip {C : Chip} (s : Sys C) : Sys C :=
  (if s.port.irq ≠ 0 then s.maskIer else s).discard .iir

/-- **The call loses nothing.** -/
def RxCall.Lossless {C : Chip} (s : Sys (receiving C)) : RxCall C → Prop
  | dwTimeout =>
    ¬ Any (s.serialIn .lsr).1 lsrBrkErrorBits ∧
      (¬ Any (s.serialIn .lsr).1 (lsrDr ||| lsrBi) →
        (s.serialIn .lsr).2.chip.2.arrive.fifo = [])
  | handleIrq iir =>
    ¬ Any iir iirNoInt → ¬ Sys.skipRx s.port (s.serialIn .lsr).1 →
      if Any (s.serialIn .lsr).1 (lsrDr ||| lsrBi) then
        Drains (receiving C) 255 s.port.lsrSavedFlags (s.serialIn .lsr).1 (s.serialIn .lsr).2.chip
      else ¬ Any (s.serialIn .lsr).1 lsrBrkErrorBits
  | txEmpty => Keeps s.port.lsrSavedFlags (s.serialIn .lsr).1
  | waitForXmitr bits => Polls (receiving C) bits 10000 s.port.lsrSavedFlags s.chip
  | backupTimeout => Keeps s.port.lsrSavedFlags (s.backupChip.serialIn .lsr).1
  | _ => True

/-! ## The rest of the calls waits -/

section Waiting

variable {C : Chip} {s t : Sys (receiving C)} (tty : SerialTty)

theorem waits_transmit (s : Sys (receiving C)) (x : Sent) : Waits s (s.transmit x) :=
  have h := waits_serialOut (s := s) (r := .data) x.byte nofun
  ⟨h.unlatched, h.saved, h.errors, h.received, h.popped, h.statuses, h.fifo⟩

theorem Waits.of_setPort {p : Port} (h : Waits (s.setPort p) t)
    (hsaved : p.lsrSavedFlags = s.port.lsrSavedFlags)
    (herrors : p.icount.errors = s.port.icount.errors) : Waits s t :=
  (waits_setPort hsaved herrors).trans h

theorem waits_setIer (s : Sys (receiving C)) (v : BitVec 8) : Waits s (s.setIer v) :=
  (waits_serialOut v Reg.noConfusion).of_setPort rfl rfl

theorem waits_startTx (s : Sys (receiving C)) : Waits s s.startTx :=
  waits_ite (Waits.refl s) (waits_setIer s _)

theorem waits_stopTx (s : Sys (receiving C)) : Waits s s.stopTx :=
  waits_ite (waits_setIer s _) (Waits.refl s)

theorem errors_tx (c : Icount) (n : Nat) : ({ c with tx := n } : Icount).errors = c.errors := by
  funext i
  cases i <;> rfl

theorem waits_xcharOut (s : Sys (receiving C)) : Waits s s.xcharOut :=
  (waits_transmit s _).trans (waits_setPort rfl (errors_tx _ _))

theorem waits_sendFront (s : Sys (receiving C)) : Waits s s.sendFront := by
  have hscr : Waits (s.transmit (.ring s.port.xmit.front (decide s.port.txStopped)))
      ((s.transmit (.ring s.port.xmit.front (decide s.port.txStopped))).discard .scr) :=
    waits_serialIn nofun nofun
  exact ((waits_transmit s _).trans (waits_ite hscr (Waits.refl _))).trans
    (waits_setPort rfl (errors_tx _ _))

theorem waits_txLoop (fuel : Nat) (count : BitVec 32) (s : Sys (receiving C)) :
    Waits s (Sys.txLoop fuel count s) := by
  induction fuel generalizing count s with
  | zero => exact Waits.refl s
  | succ fuel ih =>
    rw [Sys.txLoop]
    exact (waits_sendFront s).trans (waits_ite (Waits.refl _) (waits_ite (ih _ _) (Waits.refl _)))

theorem waits_txChars (s : Sys (receiving C)) : Waits s s.txChars := by
  have hloop := waits_txLoop s.port.xmit.pending s.port.txLoadsz s
  exact waits_ite (waits_xcharOut s) (waits_ite (waits_stopTx s) (waits_ite (waits_stopTx s)
    (waits_ite (hloop.trans (waits_stopTx _)) hloop)))

theorem waits_applyCts (s : Sys (receiving C)) (change : CtsChange) :
    Waits s (s.applyCts change) := by
  cases change with
  | none => exact Waits.refl s
  | start => exact (waits_startTx _).of_setPort rfl rfl
  | stop => exact (waits_stopTx _).of_setPort rfl rfl

theorem waits_countModem (s : Sys (receiving C)) (status : BitVec 8) :
    Waits s (s.setPort (Sys.countModem s.port status)) := by
  refine waits_setPort rfl ?_
  funext i
  rw [Sys.countModem]
  dsimp only
  split <;> split <;> cases i <;> rfl

theorem waits_modemStatus (s : Sys (receiving C)) : Waits s (s.modemStatus tty).2 := by
  have hread : Waits s ((s.serialIn .msr).2.setPort
      { (s.serialIn .msr).2.port with msrSavedFlags := 0#8 }) :=
    (waits_serialIn Reg.noConfusion Reg.noConfusion).trans (waits_setPort rfl rfl)
  rw [Sys.modemStatus]
  dsimp only
  split
  · exact (hread.trans (waits_countModem _ _)).trans
      (waits_ite (waits_applyCts _ _) (Waits.refl _))
  · exact hread

theorem waits_maskIer (s : Sys (receiving C)) : Waits s s.maskIer :=
  (waits_serialIn Reg.noConfusion Reg.noConfusion).trans (waits_serialOut _ Reg.noConfusion)

theorem waits_waitCts (n : Nat) (s : Sys (receiving C)) : Waits s (Sys.waitCts n s) := by
  induction n generalizing s with
  | zero => exact Waits.refl s
  | succ n ih =>
    have hread : Waits s ((s.serialIn .msr).2.saveMsr (s.serialIn .msr).1) :=
      (waits_serialIn Reg.noConfusion Reg.noConfusion).trans (waits_setPort rfl rfl)
    rw [Sys.waitCts]
    exact waits_ite hread (hread.trans (ih _))

end Waiting

/-! ## The calls lose nothing but that -/

section Losing

variable {C : Chip} {tty : SerialTty} {lsr : BitVec 8}

theorem any_dr_of_any (s : Sys (receiving C)) (h : Any (s.serialIn .lsr).1 (lsrDr ||| lsrBi)) :
    Any (s.serialIn .lsr).1 lsrDr := by
  obtain ⟨line, hstatus, -⟩ := serialIn_lsr s
  rw [hstatus] at h ⊢
  rcases any_mask_or.mp h with hdr | hbi
  · exact hdr
  · exact Receiver.any_status_dr.mpr
      (Receiver.any_status_charErrors (any_charErrors.mpr (.inl hbi))).1

theorem loses_rxLoop (hoff : SysrqOff tty) (n : Nat) (s : Sys (receiving C))
    (hdr : Any lsr lsrDr) :
    Loses Booked deficit ⟨lsr, s⟩ ⟨0#8, (Sys.rxLoop tty n lsr s).2⟩
      (Drains (receiving C) n s.port.lsrSavedFlags lsr s.chip) := by
  induction n generalizing lsr s with
  | zero => exact loses_takesChar hdr (Sys.readChar_takesChar hoff hdr)
  | succ n ih =>
    have htakes : s.TakesChar (s.readChar tty lsr) lsr := Sys.readChar_takesChar hoff hdr
    have htake := loses_takesChar hdr htakes
    have hread := loses_serialIn_lsr (s.readChar tty lsr)
    have hchip : ((receiving C).read s.chip .data).2 = (s.readChar tty lsr).chip :=
      htakes.chip.symm
    rw [Sys.rxLoop, Drains, hchip]
    refine htake.trans (hread.free_trans ?_)
    by_cases hany : Any ((s.readChar tty lsr).serialIn .lsr).1 (lsrDr ||| lsrBi)
    · have hsaved : ((s.readChar tty lsr).serialIn .lsr).2.port.lsrSavedFlags = 0#8 := htakes.saved
      have hrest := ih ((s.readChar tty lsr).serialIn .lsr).2 (any_dr_of_any _ hany)
      rw [hsaved] at hrest
      rw [if_pos hany]
      exact hrest.congr fun _ => Iff.of_eq (if_pos hany).symm
    · rw [if_neg hany]
      exact (loses_drop _ _).congr fun _ => Iff.of_eq (if_neg hany).symm

theorem loses_irqReceive (hoff : SysrqOff tty) (s : Sys (receiving C)) :
    Loses Booked deficit ⟨0#8, s⟩ ⟨0#8, (s.irqReceive tty).2⟩
      (¬ Sys.skipRx s.port (s.serialIn .lsr).1 →
        if Any (s.serialIn .lsr).1 (lsrDr ||| lsrBi) then
          Drains (receiving C) 255 s.port.lsrSavedFlags (s.serialIn .lsr).1
            (s.serialIn .lsr).2.chip
        else ¬ Any (s.serialIn .lsr).1 lsrBrkErrorBits) := by
  refine (loses_serialIn_lsr s).free_trans ?_
  rw [Sys.irqReceive]
  by_cases hskip : Sys.skipRx s.port (s.serialIn .lsr).1
  · -- The status shows no error, so it can be dropped.
    have hplain : ¬ Any (s.serialIn .lsr).1 lsrBrkErrorBits :=
      fun h => hskip.1 (any_mask_or.mpr (.inr h))
    rw [if_neg fun h => h.2 hskip]
    exact (loses_drop _ _).congr fun _ => iff_of_true hplain fun h => absurd hskip h
  · rw [forall_prop_of_true hskip]
    by_cases hany : Any (s.serialIn .lsr).1 (lsrDr ||| lsrBi)
    · rw [if_pos ⟨hany, hskip⟩, if_pos hany]
      exact loses_rxLoop hoff 255 _ (any_dr_of_any s hany)
    · rw [if_neg fun h => hany h.1, if_neg hany]
      exact loses_drop _ _

theorem loses_handleIrq (hoff : SysrqOff tty) (s : Sys (receiving C)) (iir : BitVec 8) :
    Loses Booked deficit ⟨0#8, s⟩ ⟨0#8, (s.handleIrq tty iir).2⟩
      (RxCall.Lossless s (.handleIrq iir)) := by
  rw [Sys.handleIrq]
  by_cases hno : Any iir iirNoInt
  · rw [if_pos hno]
    exact (Loses.refl _).congr fun _ => iff_of_true trivial fun h => absurd hno h
  · have hlossless : RxCall.Lossless s (.handleIrq iir) ↔ _ := forall_prop_of_true hno
    have hreceive := (loses_irqReceive hoff s).congr fun _ => hlossless.symm
    have hmodem := waits_modemStatus tty (s.irqReceive tty).2
    have hrest := hmodem.trans (waits_txChars _)
    rw [if_neg hno]
    exact hreceive.trans_free ((waits_ite hrest hmodem).loses 0#8)

theorem loses_dwTimeout (s : Sys (receiving C)) :
    Loses Booked deficit ⟨0#8, s⟩ ⟨0#8, s.dwTimeout⟩ (RxCall.Lossless s .dwTimeout) := by
  have hread := (loses_serialIn_lsr s).free_trans
    (loses_drop (s.serialIn .lsr).2 (s.serialIn .lsr).1)
  rw [Sys.dwTimeout]
  refine hread.trans ?_
  by_cases hany : Any (s.serialIn .lsr).1 (lsrDr ||| lsrBi)
  · rw [if_pos hany]
    exact (Loses.refl _).congr fun _ => iff_of_true trivial fun h => absurd hany h
  · have hempty : (s.serialIn .lsr).2.chip.2.fifo = [] := by
      obtain ⟨line, hstatus, hchip⟩ := serialIn_lsr s
      have hdr : ¬ Any (s.serialIn .lsr).1 lsrDr := fun h => hany (any_mask_or.mpr (.inl h))
      rw [hstatus, Receiver.any_status_dr, Decidable.not_not] at hdr
      rw [hchip, Receiver.report, hdr]
      rfl
    rw [if_neg hany, forall_prop_of_true hany]
    exact loses_discard hempty

theorem loses_readSave (s : Sys (receiving C)) :
    Loses Booked deficit ⟨0#8, s⟩
      ⟨0#8, (s.serialIn .lsr).2.saveLsr (s.serialIn .lsr).1⟩
      (Keeps s.port.lsrSavedFlags (s.serialIn .lsr).1) :=
  (loses_serialIn_lsr s).free_trans (loses_saveLsr _ _)

theorem loses_waitLsr (bits : BitVec 8) (n : Nat) (s : Sys (receiving C)) :
    Loses Booked deficit ⟨0#8, s⟩ ⟨0#8, Sys.waitLsr bits n s⟩
      (Polls (receiving C) bits n s.port.lsrSavedFlags s.chip) := by
  induction n generalizing s with
  | zero => exact Loses.refl _
  | succ n ih =>
    rw [Sys.waitLsr, Polls]
    refine (loses_readSave s).trans ?_
    by_cases hbits : (s.serialIn .lsr).1 &&& bits = bits
    · rw [if_pos hbits]
      exact (Loses.refl _).congr fun _ => iff_of_true trivial fun h => absurd hbits h
    · rw [if_neg hbits]
      exact (ih _).congr fun _ => ⟨fun h _ => h, fun h => h hbits⟩

theorem loses_waitForXmitr (s : Sys (receiving C)) (bits : BitVec 8) :
    Loses Booked deficit ⟨0#8, s⟩ ⟨0#8, s.waitForXmitr bits⟩
      (RxCall.Lossless s (.waitForXmitr bits)) :=
  (loses_waitLsr bits 10000 s).trans_free
    ((waits_ite (waits_waitCts 1000000 _) (Waits.refl _)).loses 0#8)

theorem loses_backupTimeout (s : Sys (receiving C)) :
    Loses Booked deficit ⟨0#8, s⟩ ⟨0#8, s.backupTimeout⟩
      (RxCall.Lossless s .backupTimeout) := by
  have hservice (u : Sys (receiving C)) :
      Loses Booked deficit ⟨0#8, u⟩ ⟨0#8, u.backupService⟩
        (Keeps u.port.lsrSavedFlags ((u.discard .iir).serialIn .lsr).1) := by
    have hiir : Waits u (u.discard .iir) := waits_serialIn nofun nofun
    refine (hiir.loses 0#8).free_trans ((loses_readSave (u.discard .iir)).trans_free ?_)
    exact (waits_ite (Waits.refl _) (waits_txChars _)).loses 0#8
  rw [Sys.backupTimeout]
  by_cases hirq : s.port.irq ≠ 0
  · have hchip : s.backupChip = s.maskIer.discard .iir := by
      rw [Sys.backupChip, if_pos hirq]
    rw [if_pos hirq, RxCall.Lossless, hchip]
    refine ((waits_maskIer s).loses 0#8).free_trans ((hservice s.maskIer).trans_free ?_)
    exact (waits_serialOut _ Reg.noConfusion).loses 0#8
  · have hchip : s.backupChip = s.discard .iir := by
      rw [Sys.backupChip, if_neg hirq]
    rw [if_neg hirq, RxCall.Lossless, hchip]
    exact hservice s

/-- A call loses nothing exactly if it is `Lossless`. -/
theorem RxCall.loses_step (hoff : SysrqOff tty) {s t : Sys (receiving C)} {e : RxCall C}
    (h : e.step tty s = some t) :
    Loses Booked deficit ⟨0#8, s⟩ ⟨0#8, t⟩ (e.Lossless s) := by
  cases e with
  | dwTimeout => exact Option.some.inj h ▸ loses_dwTimeout s
  | handleIrq iir => exact Option.some.inj h ▸ loses_handleIrq hoff s iir
  | txEmpty => exact Option.some.inj h ▸ loses_readSave s
  | waitForXmitr bits => exact Option.some.inj h ▸ loses_waitForXmitr s bits
  | backupTimeout => exact Option.some.inj h ▸ loses_backupTimeout s
  | readOther r =>
    obtain ⟨⟨hdata, hlsr⟩, heq⟩ := Option.ite_none_right_eq_some.mp h
    exact Option.some.inj heq ▸ (waits_serialIn hdata hlsr).loses 0#8
  | core f =>
    obtain ⟨⟨hsaved, hcount⟩, heq⟩ := Option.ite_none_right_eq_some.mp h
    exact Option.some.inj heq ▸ (waits_setPort hsaved (congrArg Icount.errors hcount)).loses 0#8
  | hardware c schedule =>
    obtain ⟨hlcr, heq⟩ := Option.ite_none_right_eq_some.mp h
    have hunlatched : s.Unlatched → ¬ Latched (C.lcr c) := by
      rw [hlcr]
      exact id
    have hwaits : Waits s { s with chip := (c, { s.chip.2 with schedule := schedule }) } :=
      ⟨hunlatched, rfl, rfl, rfl, rfl, rfl, [], (List.append_nil _).symm⟩
    exact Option.some.inj heq ▸ hwaits.loses 0#8

end Losing

/-! ## Runs -/

section Runs

variable {C : Chip} {tty : SerialTty} {s t : Sys (receiving C)}

/-- Nothing has been read yet, and no flags are held. -/
structure Listening (s : Sys (receiving C)) : Prop where
  unlatched : s.Unlatched
  saved : s.port.lsrSavedFlags = 0#8
  received : s.received = []
  popped : s.chip.2.popped = []
  statuses : s.chip.2.statuses = []

/-- Recording starts: what has been read and handed on so far is forgotten. -/
def Sys.listen (s : Sys (receiving C)) : Sys (receiving C) :=
  { s with
    chip := (s.chip.1, { s.chip.2 with popped := [], statuses := [] })
    received := [] }

theorem listening_listen (hunlatched : s.Unlatched) (hsaved : s.port.lsrSavedFlags = 0#8) :
    Listening s.listen :=
  ⟨hunlatched, hsaved, rfl, rfl, rfl⟩

theorem listening_doStartup {config : Sys.Config} {setupIrq : Int}
    (hopen : (s.doStartup config setupIrq).1 = 0) :
    Listening (s.doStartup config setupIrq).2.listen := by
  refine listening_listen (Sys.doStartup_unlatched hopen) ?_
  revert hopen
  have hnodev : -Sys.ENODEV ≠ 0 := by decide
  rw [Sys.doStartup]
  split
  · exact fun hopen => absurd hopen hnodev
  · split
    · rename_i hirq
      exact fun hopen => absurd hopen hirq
    · exact fun _ => rfl

theorem Listening.booked (h : Listening s) : Booked ⟨0#8, s⟩ := by
  refine Booked.idle h.unlatched ?_ fun hheld => ?_
  · rw [h.received]
    exact List.nil_sublist _
  · rw [h.saved] at hheld
    exact absurd hheld (by decide)

theorem Listening.accounted (h : Listening s) : Accounted s.port.icount s := by
  have hzero (i : Indication) : i.shows 0#8 = 0 := shows_eq_zero_iff.mpr (by decide) i
  refine ⟨?_, fun i => ?_⟩
  · rw [h.received, h.popped]
    rfl
  · rw [h.saved, hzero, Receiver.reported, h.statuses]
    rfl

theorem RxCall.exec_booked (hoff : SysrqOff tty) (h : Booked ⟨0#8, s⟩) {es : List (RxCall C)}
    (hrun : exec (RxCall.step tty) s es = some t) : Booked ⟨0#8, t⟩ := by
  refine exec_invariant (P := fun s => Booked ⟨0#8, s⟩) (C := fun _ _ => True)
    (fun s e t hs _ hstep => ?_) h (Along.of_forall fun _ _ => trivial) hrun
  exact (RxCall.loses_step hoff hstep hs).1

/-- **`dw8250_handle_irq` is a run**: IIR is read, the timeout is dealt with under the lock, and
`serial8250_handle_irq` takes the lock again. -/
theorem dwHandleIrq_run (s : Sys (receiving C)) {readUsr : C.State → C.State}
    (husr : ∀ c, C.lcr (readUsr c) = C.lcr c) : ∃ c schedule,
    exec (RxCall.step tty) s
      (.readOther .iir ::
        ((if (s.serialIn .iir).1 &&& 0x3f#8 = iirRxTimeout then [.dwTimeout] else []) ++
          [.handleIrq (s.serialIn .iir).1, .hardware c schedule])) =
      some (s.dwHandleIrq tty fun c => (readUsr c.1, c.2)).2 := by
  let t := if (s.serialIn .iir).1 &&& 0x3f#8 = iirRxTimeout then (s.serialIn .iir).2.dwTimeout
    else (s.serialIn .iir).2
  have htimeout : exec (RxCall.step tty) (s.serialIn .iir).2
      (if (s.serialIn .iir).1 &&& 0x3f#8 = iirRxTimeout then [.dwTimeout] else []) = some t := by
    show exec (RxCall.step tty) _ _ = some (if _ then _ else _)
    split
    · rfl
    · rfl
  let handled := t.handleIrq tty (s.serialIn .iir).1
  have hlast (c : C.State) (hc : C.lcr c = C.lcr handled.2.chip.1) :
      exec (RxCall.step tty) t
        [.handleIrq (s.serialIn .iir).1, .hardware c handled.2.chip.2.schedule] =
        some { handled.2 with chip := (c, handled.2.chip.2) } :=
    exec_cons.mpr ⟨handled.2, rfl, exec_singleton.mpr (if_pos hc)⟩
  have hread : RxCall.step tty s (.readOther .iir) = some (s.serialIn .iir).2 := by
    rw [RxCall.step, if_pos ⟨nofun, nofun⟩]
    rfl
  have hrun (c : C.State) (hc : C.lcr c = C.lcr handled.2.chip.1) :=
    exec_cons.mpr ⟨_, hread, exec_append.mpr ⟨t, htimeout, hlast c hc⟩⟩
  have hdw : s.dwHandleIrq tty (fun c => (readUsr c.1, c.2)) =
      if handled.1 ≠ 0 then (1, handled.2)
      else if (s.serialIn .iir).1 &&& iirBusy = iirBusy then
        (1, { handled.2 with chip := (readUsr handled.2.chip.1, handled.2.chip.2) })
      else (0, handled.2) := rfl
  rw [hdw]
  by_cases hzero : handled.1 ≠ 0
  · rw [if_pos hzero]
    exact ⟨handled.2.chip.1, _, hrun _ rfl⟩
  · rw [if_neg hzero]
    by_cases hbusy : (s.serialIn .iir).1 &&& iirBusy = iirBusy
    · rw [if_pos hbusy]
      exact ⟨readUsr handled.2.chip.1, _, hrun _ (husr _)⟩
    · rw [if_neg hbusy]
      exact ⟨handled.2.chip.1, _, hrun _ rfl⟩

/-- **Receive accounting.**  From a port that starts to listen, every byte that is popped has been
handed to the tty layer in order, and every indication has been counted or is held, in every state
that a run reaches, exactly if every call of the run is lossless. -/
theorem accounted_run_iff (hoff : SysrqOff tty) (s₀ : Sys (receiving C)) (h₀ : Listening s₀)
    (es : List (RxCall C)) :
    (∀ es₁ es₂ t, es = es₁ ++ es₂ → exec (RxCall.step tty) s₀ es₁ = some t →
      Accounted s₀.port.icount t) ↔
      Along (RxCall.step tty) RxCall.Lossless s₀ es := by
  have hiff : (∀ es₁ es₂ t, es = es₁ ++ es₂ → exec (RxCall.step tty) s₀ es₁ = some t →
      deficit ⟨0#8, t⟩ = deficit ⟨0#8, s₀⟩) ↔
        Along (RxCall.step tty) RxCall.Lossless s₀ es := by
    refine lossless_iff (I := fun s => Booked ⟨0#8, s⟩) (φ := fun s => deficit ⟨0#8, s⟩)
      (fun s e t hstep => RxCall.loses_step hoff hstep) (fun s e hnone => ?_) h₀.booked
    cases e with
    | readOther | core | hardware => trivial
    | _ => exact absurd hnone (Option.some_ne_none _)
  rw [← hiff]
  refine forall_congr' fun es₁ => forall_congr' fun es₂ => forall_congr' fun t =>
    imp_congr_right fun _ => imp_congr_right fun hrun => ?_
  obtain ⟨hbytes₀, hcounts₀⟩ := (accounted_iff h₀.booked).mp h₀.accounted
  rw [accounted_iff (RxCall.exec_booked hoff h₀.booked hrun), deficit_eq_iff, hbytes₀]
  exact and_congr_right fun _ => forall_congr' fun i => by rw [hcounts₀]

end Runs

/-! ## A parity error in the receive timeout -/

/-- A port that is opened, with an idle chip behind an empty receiver. -/
def openReceiver : Sys (receiving idleChip) :=
  (Sys.doStartup
    { port := closedPort
      chip := ({ ier := 0#8, lcr := 0#8 }, { fifo := [], overrun := false, schedule := [] }) }
    config16550a 0).2.listen

theorem listening_openReceiver : Listening openReceiver := listening_doStartup (by decide +kernel)

theorem sysrqOff_quietTty : SysrqOff quietTty := ⟨fun _ => rfl, fun _ _ => rfl⟩

/-- The line delivers `arrivals` before the next accesses. -/
def lineDelivers (arrivals : List (List Arrival)) : RxCall idleChip :=
  .hardware { ier := 0#8, lcr := lcrWlen8 } arrivals

/-- A character with a parity error, for which the chip raises the receive timeout. -/
def parityInTimeout : List (RxCall idleChip) :=
  [lineDelivers [[.char { ch := 0x41#8, pe := true }]], .dwTimeout, .handleIrq iirRxTimeout]

/-- A character with a parity error, taken by the interrupt handler. -/
def parityInTurn : List (RxCall idleChip) :=
  [lineDelivers [[.char { ch := 0x41#8, pe := true }]], .txEmpty, .handleIrq iirRxTimeout]

/-- A byte that arrives between the two accesses of the receive timeout. -/
def byteInTimeout : List (RxCall idleChip) :=
  [lineDelivers [[], [.char { ch := 0x41#8 }]], .dwTimeout]

/-- The condition on a run in which a character is taken in turn. -/
theorem accounted_run_iff_parityInTurn :
    (∀ es₁ es₂ t, parityInTurn = es₁ ++ es₂ →
      exec (RxCall.step quietTty) openReceiver es₁ = some t →
      Accounted openReceiver.port.icount t) ↔
      Along (RxCall.step quietTty) RxCall.Lossless openReceiver parityInTurn :=
  accounted_run_iff sysrqOff_quietTty openReceiver listening_openReceiver parityInTurn

/-- **The receive timeout loses** the parity error of a character, whose status it drops, and the
byte that arrives between its two accesses. -/
theorem not_accounted_timeout :
    (∃ t, exec (RxCall.step quietTty) openReceiver byteInTimeout = some t ∧
      t.chip.2.popped = [0x41#8] ∧ t.received = []) ∧
      ¬ ∀ (C : Chip) (tty : SerialTty), SysrqOff tty → ∀ s₀ : Sys (receiving C), Listening s₀ →
        ∀ (es es₁ es₂ : List (RxCall C)) (t : Sys (receiving C)), es = es₁ ++ es₂ →
        exec (RxCall.step tty) s₀ es₁ = some t → Accounted s₀.port.icount t := by
  constructor
  · have hrun : (exec (RxCall.step quietTty) openReceiver byteInTimeout).map
        (fun t => (t.chip.2.popped, t.received)) = some ([0x41#8], []) := by decide +kernel
    obtain ⟨t, ht, heq⟩ := Option.map_eq_some_iff.mp hrun
    exact ⟨t, ht, congrArg Prod.fst heq, congrArg Prod.snd heq⟩
  · intro hclaim
    have hrun : (exec (RxCall.step quietTty) openReceiver parityInTimeout).map
        (fun t => (t.port.icount.parity, t.port.lsrSavedFlags, t.chip.2.reported .parity)) =
          some (0, 0#8, 1) := by decide +kernel
    obtain ⟨t, ht, heq⟩ := Option.map_eq_some_iff.mp hrun
    have hcounts := (hclaim idleChip quietTty sysrqOff_quietTty openReceiver
      listening_openReceiver parityInTimeout parityInTimeout [] t (List.append_nil _).symm
      ht).counts .parity
    simp only [Prod.mk.injEq] at heq
    rw [heq.2.1, heq.2.2, Icount.errors, heq.1] at hcounts
    exact absurd hcounts (by decide)

end RealtekIpcam.Serial
