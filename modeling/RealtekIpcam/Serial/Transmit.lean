import RealtekIpcam.Serial.TxChars

/-!
# What reaches the transmitter

The tty layer appends to the ring, sets the flow control character and stops and resumes
transmission; interrupts and the backup timer run `serial8250_tx_chars`.  Whatever they do in
whatever order, the bytes of the ring reach the chip in order, each once, and none while
transmission is stopped: `Delivers` is that property of an operation.

For the transmitter to go on by itself, its interrupt must be enabled whenever there is something to
send.  `Armed` says so, and every operation keeps it but one: `serial8250_stop_tx` disarms the
transmitter also when a flow control character waits, which `serial8250_tx_chars` would send even
while transmission is stopped.  `keepsContract_iff` says that a run meets its contract exactly if it
has no such step.
-/

namespace RealtekIpcam.Serial

open Runs

/-! ## The stream of bytes -/

/-- The byte of a write that is no flow control character. -/
def Sent.data : Sent → Option (BitVec 8)
  | .xChar _ => none
  | .ring ch _ => some ch
  | .console ch => some ch

/-- A ring byte that was written while transmission was stopped. -/
def Sent.WhileStopped : Sent → Prop
  | .ring _ stopped => stopped = true
  | _ => False

/-- Something waits to be sent. -/
def Port.Owes (p : Port) : Prop := p.xChar ≠ 0#8 ∨ ¬ p.circEmpty ∧ ¬ p.txStopped

instance (p : Port) : Decidable p.Owes := instDecidableOr

namespace Sys

variable {C : Chip} {s t u : Sys C}

/-- What has been written besides flow control characters. -/
def written (s : Sys C) : List (BitVec 8) := s.sent.filterMap Sent.data

/-- What has been written, and what is left in the ring. -/
def stream (s : Sys C) : List (BitVec 8) := s.written ++ s.port.xmit.contents

/-- The transmit interrupt is enabled if something waits to be sent. -/
def Armed (s : Sys C) : Prop := s.port.Owes → Any s.port.ier ierThri

/-- **What an operation may do with the stream**: move bytes from the ring to the chip, and none
while transmission is stopped. -/
structure Delivers (s t : Sys C) : Prop where
  stream : t.stream = s.stream
  stopped : (∀ x ∈ s.sent, ¬ x.WhileStopped) → ∀ x ∈ t.sent, ¬ x.WhileStopped

theorem Delivers.trans (h : Delivers s t) (h' : Delivers t u) : Delivers s u :=
  ⟨h'.stream.trans h.stream, fun hs => h'.stopped (h.stopped hs)⟩

/-! ## Operations beside the transmitter -/

/-- Nothing of the transmitter is touched. -/
structure Aside (s t : Sys C) : Prop where
  sent : t.sent = s.sent
  xmit : t.port.xmit = s.port.xmit
  xChar : t.port.xChar = s.port.xChar
  stopped : t.port.stopped = s.port.stopped
  hwStopped : t.port.hwStopped = s.port.hwStopped
  ier : t.port.ier = s.port.ier

theorem Aside.refl (s : Sys C) : Aside s s := ⟨rfl, rfl, rfl, rfl, rfl, rfl⟩

theorem Aside.trans (h : Aside s t) (h' : Aside t u) : Aside s u :=
  ⟨h'.sent.trans h.sent, h'.xmit.trans h.xmit, h'.xChar.trans h.xChar,
    h'.stopped.trans h.stopped, h'.hwStopped.trans h.hwStopped, h'.ier.trans h.ier⟩

theorem aside_ite {c : Prop} [Decidable c] (h : Aside s t) (h' : Aside s u) :
    Aside s (if c then t else u) := by
  split
  · exact h
  · exact h'

theorem Aside.txStopped (h : Aside s t) : t.port.txStopped ↔ s.port.txStopped := by
  rw [Port.txStopped, h.stopped, h.hwStopped]
  rfl

theorem Aside.owes (h : Aside s t) : t.port.Owes ↔ s.port.Owes := by
  rw [Port.Owes, Port.circEmpty, h.xChar, h.xmit, h.txStopped]
  rfl

theorem Aside.armed (h : Aside s t) : t.Armed ↔ s.Armed := by
  rw [Armed, h.owes, h.ier]
  rfl

theorem Aside.delivers (h : Aside s t) : Delivers s t := by
  refine ⟨?_, fun hs => h.sent ▸ hs⟩
  rw [Sys.stream, written, h.sent, h.xmit]
  rfl

theorem aside_serialIn (s : Sys C) (r : Reg) : Aside s (s.serialIn r).2 :=
  ⟨rfl, rfl, rfl, rfl, rfl, rfl⟩

theorem aside_serialOut (s : Sys C) (r : Reg) (v : BitVec 8) : Aside s (s.serialOut r v) :=
  ⟨rfl, rfl, rfl, rfl, rfl, rfl⟩

theorem aside_saveLsr (s : Sys C) (lsr : BitVec 8) : Aside s (s.saveLsr lsr) :=
  ⟨rfl, rfl, rfl, rfl, rfl, rfl⟩

variable (tty : SerialTty)

theorem aside_readChar (s : Sys C) (lsr : BitVec 8) : Aside s (s.readChar tty lsr) := by
  have hread : Aside s (if Any lsr lsrDr then s.serialIn .data else (0#8, s)).2 := by
    split
    · exact aside_serialIn s .data
    · exact Aside.refl s
  rw [readChar]
  exact hread.trans (aside_ite ⟨rfl, rfl, rfl, rfl, rfl, rfl⟩
    (aside_ite ⟨rfl, rfl, rfl, rfl, rfl, rfl⟩ ⟨rfl, rfl, rfl, rfl, rfl, rfl⟩))

theorem aside_rxLoop (n : Nat) (lsr : BitVec 8) (s : Sys C) : Aside s (rxLoop tty n lsr s).2 := by
  induction n generalizing lsr s with
  | zero => exact aside_readChar tty s lsr
  | succ n ih =>
    have hread := (aside_readChar tty s lsr).trans (aside_serialIn (s.readChar tty lsr) .lsr)
    rw [rxLoop]
    split
    · exact hread.trans (ih _ _)
    · exact hread

theorem aside_irqReceive (s : Sys C) : Aside s (s.irqReceive tty).2 := by
  rw [irqReceive]
  split
  · exact (aside_serialIn s .lsr).trans (aside_rxLoop tty _ _ _)
  · exact aside_serialIn s .lsr

/-! ## Starting and stopping -/

theorem delivers_setIer (s : Sys C) (v : BitVec 8) : Delivers s (s.setIer v) := ⟨rfl, id⟩

theorem delivers_setPort {p : Port} (h : p.xmit = s.port.xmit) : Delivers s (s.setPort p) := by
  refine ⟨?_, id⟩
  show s.written ++ p.xmit.contents = s.stream
  rw [h]
  rfl

theorem Delivers.of_setPort {p : Port} (h : Delivers (s.setPort p) t)
    (hxmit : p.xmit = s.port.xmit) : Delivers s t := (delivers_setPort hxmit).trans h

theorem delivers_ite {c : Prop} [Decidable c] (h : Delivers s t) (h' : Delivers s u) :
    Delivers s (if c then t else u) := by
  split
  · exact h
  · exact h'

theorem Delivers.refl (s : Sys C) : Delivers s s := (Aside.refl s).delivers

theorem delivers_startTx (s : Sys C) : Delivers s s.startTx :=
  delivers_ite (Delivers.refl s) (s.delivers_setIer _)

theorem delivers_stopTx (s : Sys C) : Delivers s s.stopTx :=
  delivers_ite (s.delivers_setIer _) (Delivers.refl s)

theorem armed_startTx (s : Sys C) : s.startTx.Armed := by
  intro _
  rw [startTx, setThri]
  split
  · assumption
  · intro hzero
    have hbit := congrArg (BitVec.getLsbD · 1) hzero
    simp [setIer, setPort, serialOut, ierThri] at hbit

theorem armed_stopTx_iff (s : Sys C) : s.stopTx.Armed ↔ ¬ s.port.Owes := by
  have hport : s.stopTx.port = { s.port with ier := s.port.ier &&& ~~~ierThri } :=
    s.clearThri_port
  have hclear : ¬ Any (s.port.ier &&& ~~~ierThri) ierThri := by
    intro h
    refine h ?_
    rw [BitVec.and_assoc, BitVec.and_comm (~~~ierThri) ierThri]
    simp
  rw [Armed, hport]
  exact ⟨fun h howes => hclear (h howes), fun h howes => absurd howes h⟩

/-! ## Running the transmitter -/

theorem filterMap_ring (stopped : Bool) (l : List (BitVec 8)) :
    (l.map (fun ch => Sent.ring ch stopped)).filterMap Sent.data = l := by
  rw [List.filterMap_map]
  exact List.filterMap_some

theorem delivers_xcharOut (s : Sys C) : Delivers s s.xcharOut := by
  have hsent : s.xcharOut.sent = s.sent ++ [.xChar s.port.xChar] := rfl
  constructor
  · show s.xcharOut.written ++ s.port.xmit.contents = s.stream
    rw [written, hsent, List.filterMap_append]
    exact congrArg (· ++ s.port.xmit.contents) (List.append_nil _)
  · intro hs x hx
    rw [hsent, List.mem_append, List.mem_singleton] at hx
    rcases hx with hx | rfl
    · exact hs x hx
    · exact id

theorem delivers_txLoop (hstop : ¬ s.port.txStopped) (hempty : ¬ s.port.circEmpty) :
    Delivers s (txLoop s.port.xmit.pending s.port.txLoadsz s) := by
  obtain ⟨hsent, hdrop⟩ := txLoop_ring s.port.xmit.pending s.port.txLoadsz s rfl hempty
  rw [decide_eq_false hstop] at hsent
  constructor
  · rw [Sys.stream, written, hsent, hdrop, List.filterMap_append, filterMap_ring,
      List.append_assoc, List.take_append_drop]
    rfl
  · intro hs x hx
    rw [hsent, List.mem_append, List.mem_map] at hx
    rcases hx with hx | ⟨ch, -, rfl⟩
    · exact hs x hx
    · exact nofun

theorem delivers_txChars (s : Sys C) : Delivers s s.txChars := by
  rw [txChars]
  split
  · exact s.delivers_xcharOut
  · split
    · exact s.delivers_stopTx
    · split
      · exact s.delivers_stopTx
      · rename_i hstop hempty
        have hloop := delivers_txLoop hstop hempty
        exact delivers_ite (hloop.trans (delivers_stopTx _)) hloop

theorem length_sent_txChars (s : Sys C) :
    s.txChars.sent.length ≤ s.sent.length + max 1 s.port.txLoadsz.toNat := by
  have hstopTx : ∀ u : Sys C, u.stopTx.sent = u.sent := by
    intro u
    rw [stopTx, clearThri]
    split <;> rfl
  rw [txChars]
  split
  · have hsent : s.xcharOut.sent = s.sent ++ [.xChar s.port.xChar] := rfl
    rw [hsent, List.length_append, List.length_singleton]
    omega
  · split
    · rw [hstopTx]
      omega
    · split
      · rw [hstopTx]
        omega
      · rename_i hempty
        have hloop := (txLoop_ring s.port.xmit.pending s.port.txLoadsz s rfl hempty).1
        have hlen : (txLoop s.port.xmit.pending s.port.txLoadsz s).sent.length ≤
            s.sent.length + max 1 s.port.txLoadsz.toNat := by
          have hburst := burst_le s.port.txLoadsz
          rw [hloop, List.length_append, List.length_map, List.length_take]
          omega
        dsimp only
        split
        · rw [hstopTx]
          exact hlen
        · exact hlen

/-- Sending keeps the interrupt enabled while something waits. -/
theorem armed_txChars (hs : s.Armed) : s.txChars.Armed := by
  rw [txChars]
  by_cases hx : s.port.xChar ≠ 0#8
  · rw [if_pos hx]
    exact fun _ => hs (Or.inl hx)
  · rw [if_neg hx]
    have hxz := Decidable.not_not.mp hx
    by_cases hstop : s.port.txStopped
    · rw [if_pos hstop]
      refine s.armed_stopTx_iff.mpr ?_
      rintro (h | ⟨-, h⟩)
      · exact hx h
      · exact h hstop
    · rw [if_neg hstop]
      by_cases hempty : s.port.circEmpty
      · rw [if_pos hempty]
        refine s.armed_stopTx_iff.mpr ?_
        rintro (h | ⟨h, -⟩)
        · exact hx h
        · exact h hempty
      · rw [if_neg hempty]
        obtain ⟨xmit, icount, hport⟩ := txLoop_port s.port.xmit.pending s.port.txLoadsz s
        obtain ⟨u, hu⟩ : ∃ u, u = txLoop s.port.xmit.pending s.port.txLoadsz s := ⟨_, rfl⟩
        rw [← hu] at hport ⊢
        dsimp only
        split
        · rename_i hdry
          refine u.armed_stopTx_iff.mpr ?_
          rintro (h | ⟨h, -⟩)
          · rw [hport] at h
            exact hx h
          · exact h hdry.1
        · intro _
          rw [hport]
          exact hs (Or.inr ⟨hempty, hstop⟩)

/-! ## Modem status and interrupts -/

/-- What `serial8250_modem_status` has the serial core do about CTS. -/
def ctsEffect (s : Sys C) : CtsChange :=
  let status := (s.serialIn .msr).1 ||| s.port.msrSavedFlags
  let p := { s.port with msrSavedFlags := 0#8 }
  if Any status msrAnyDelta ∧ Any p.ier ierMsi ∧ Any status msrDcts then
    tty.ctsChange (countModem p status) (decide (Any status msrCts))
  else .none

theorem modemStatus_eq (s : Sys C) :
    ∃ u, Aside s u ∧ (s.modemStatus tty).2 = u.applyCts (s.ctsEffect tty) := by
  obtain ⟨status, hstatus⟩ : ∃ v, v = (s.serialIn .msr).1 ||| s.port.msrSavedFlags := ⟨_, rfl⟩
  obtain ⟨v, hv⟩ : ∃ v, v = (s.serialIn .msr).2.setPort { s.port with msrSavedFlags := 0#8 } :=
    ⟨_, rfl⟩
  have haside : Aside s v := hv ▸ ⟨rfl, rfl, rfl, rfl, rfl, rfl⟩
  have hcount : Aside v (v.setPort (countModem v.port status)) := ⟨rfl, rfl, rfl, rfl, rfl, rfl⟩
  have hmodem : (s.modemStatus tty).2 =
      (if Any status msrAnyDelta ∧ Any v.port.ier ierMsi then
        (status, if Any status msrDcts then (v.setPort (countModem v.port status)).applyCts
          (tty.ctsChange (countModem v.port status) (decide (Any status msrCts)))
          else v.setPort (countModem v.port status))
      else (status, v)).2 := by
    rw [hv, hstatus]
    rfl
  have heffect : s.ctsEffect tty =
      if Any status msrAnyDelta ∧ Any v.port.ier ierMsi ∧ Any status msrDcts then
        tty.ctsChange (countModem v.port status) (decide (Any status msrCts))
      else .none := by
    rw [hv, hstatus]
    rfl
  rw [hmodem, heffect]
  by_cases hdelta : Any status msrAnyDelta ∧ Any v.port.ier ierMsi
  · by_cases hcts : Any status msrDcts
    · refine ⟨_, haside.trans hcount, ?_⟩
      rw [if_pos hdelta, if_pos hcts, if_pos ⟨hdelta.1, hdelta.2, hcts⟩]
    · refine ⟨_, haside.trans hcount, ?_⟩
      rw [if_pos hdelta, if_neg hcts, if_neg fun h => hcts h.2.2]
      rfl
  · refine ⟨v, haside, ?_⟩
    rw [if_neg hdelta, if_neg fun h => hdelta ⟨h.1, h.2.1⟩]
    rfl

theorem delivers_applyCts (s : Sys C) (change : CtsChange) : Delivers s (s.applyCts change) := by
  cases change with
  | none => exact Delivers.refl s
  | start => exact (delivers_startTx _).of_setPort rfl
  | stop => exact (delivers_stopTx _).of_setPort rfl

/-- A change of CTS keeps the transmitter armed unless it stops it before a flow control
character. -/
theorem armed_applyCts_iff (hs : s.Armed) (change : CtsChange) :
    (s.applyCts change).Armed ↔ ¬ (change = .stop ∧ s.port.xChar ≠ 0#8) := by
  cases change with
  | none =>
    exact ⟨fun _ h => CtsChange.noConfusion h.1, fun _ => hs⟩
  | start =>
    exact ⟨fun _ h => CtsChange.noConfusion h.1, fun _ => armed_startTx _⟩
  | stop =>
    rw [applyCts, armed_stopTx_iff]
    constructor
    · exact fun h hx => h (Or.inl hx.2)
    · rintro h (hx | ⟨-, hstop⟩)
      · exact h ⟨rfl, hx⟩
      · exact hstop (Or.inr rfl)

theorem delivers_modemStatus (s : Sys C) : Delivers s (s.modemStatus tty).2 := by
  obtain ⟨u, haside, heq⟩ := modemStatus_eq tty s
  rw [heq]
  exact haside.delivers.trans (delivers_applyCts u _)

theorem armed_modemStatus_iff (hs : s.Armed) :
    (s.modemStatus tty).2.Armed ↔ ¬ (s.ctsEffect tty = .stop ∧ s.port.xChar ≠ 0#8) := by
  obtain ⟨u, haside, heq⟩ := modemStatus_eq tty s
  rw [heq, armed_applyCts_iff (haside.armed.mpr hs), haside.xChar]

theorem delivers_handleIrq (s : Sys C) (iir : BitVec 8) :
    Delivers s (s.handleIrq tty iir).2 := by
  rw [handleIrq]
  split
  · exact Delivers.refl s
  · exact ((aside_irqReceive tty s).delivers.trans (delivers_modemStatus tty _)).trans
      (delivers_ite (delivers_txChars _) (Delivers.refl _))

/-- **An interrupt** keeps the transmitter armed unless it reports that CTS has gone while a flow
control character waits. -/
theorem armed_handleIrq_iff (hs : s.Armed) (iir : BitVec 8) :
    (s.handleIrq tty iir).2.Armed ↔
      ¬ (¬ Any iir iirNoInt ∧ (s.irqReceive tty).2.ctsEffect tty = .stop ∧
        s.port.xChar ≠ 0#8) := by
  by_cases hint : Any iir iirNoInt
  · rw [handleIrq, if_pos hint]
    exact ⟨fun _ h => h.1 hint, fun _ => hs⟩
  · obtain ⟨status, hstatus⟩ : ∃ v, v = (s.irqReceive tty).1 := ⟨_, rfl⟩
    obtain ⟨m, hm⟩ : ∃ m, m = ((s.irqReceive tty).2.modemStatus tty).2 := ⟨_, rfl⟩
    have haside := aside_irqReceive tty s
    have hmodem := armed_modemStatus_iff tty (haside.armed.mpr hs)
    have heq : (s.handleIrq tty iir).2 =
        if Any status lsrThre ∧ Any m.port.ier ierThri then m.txChars else m := by
      rw [handleIrq, if_neg hint, hm, hstatus]
    rw [← hm, haside.xChar] at hmodem
    rw [heq]
    constructor
    · rintro harmed ⟨-, hstop, hx⟩
      have hdropped : ¬ m.Armed := fun h => hmodem.mp h ⟨hstop, hx⟩
      have hclear : ¬ Any m.port.ier ierThri := fun h => hdropped fun _ => h
      rw [if_neg fun h => hclear h.2] at harmed
      exact hdropped harmed
    · intro h
      have hm : m.Armed := hmodem.mpr fun hdrop => h ⟨hint, hdrop⟩
      split
      · exact armed_txChars hm
      · exact hm

/-! ## The backup timer -/

theorem aside_backupReads (s : Sys C) : Aside s (((s.serialIn .iir).2.serialIn .lsr).2.saveLsr
    ((s.serialIn .iir).2.serialIn .lsr).1) :=
  ((aside_serialIn s .iir).trans (aside_serialIn _ .lsr)).trans (aside_saveLsr _ _)

theorem delivers_backupService (s : Sys C) : Delivers s s.backupService :=
  (aside_backupReads s).delivers.trans (delivers_ite (Delivers.refl _) (delivers_txChars _))

theorem armed_backupService (hs : s.Armed) : s.backupService.Armed := by
  have hreads := (aside_backupReads s).armed.mpr hs
  rw [backupService]
  split
  · exact hreads
  · exact armed_txChars hreads

theorem aside_maskIer (s : Sys C) : Aside s s.maskIer :=
  (aside_serialIn s .ier).trans (aside_serialOut _ _ _)

theorem delivers_backupTimeout (s : Sys C) : Delivers s s.backupTimeout :=
  delivers_ite (((aside_maskIer s).delivers.trans (delivers_backupService _)).trans
    (aside_serialOut _ _ _).delivers) (delivers_backupService s)

theorem armed_backupTimeout (hs : s.Armed) : s.backupTimeout.Armed := by
  rw [backupTimeout]
  split
  · refine (aside_serialOut _ _ _).armed.mpr (armed_backupService ?_)
    exact (aside_maskIer s).armed.mpr hs
  · exact armed_backupService hs

end Sys

/-! ## Runs -/

/-- A step of the tty layer, the driver or the hardware around the transmitter. -/
inductive TxCall (C : Chip) where
  /-- The tty layer appends bytes that fit to the ring, and starts. -/
  | write (bytes : List (BitVec 8))
  /-- The tty layer sets the flow control character, and starts. -/
  | sendXchar (ch : BitVec 8)
  /-- The tty layer or the serial core stops transmission, or has it stay as it is. -/
  | halt (stopped hwStopped : Bool)
  /-- The tty layer or the serial core changes the stopped state, and starts. -/
  | resume (stopped hwStopped : Bool)
  | stopTx
  | handleIrq (iir : BitVec 8)
  | backupTimeout
  /-- The chip changes. -/
  | hardware (c : C.State)

variable {C : Chip} (tty : SerialTty)

/-- The ring with bytes appended. -/
def Port.append (p : Port) (bytes : List (BitVec 8)) : Port :=
  { p with xmit := bytes.foldl CircBuf.put p.xmit }

def TxCall.step (s : Sys C) : TxCall C → Option (Sys C)
  | .write bytes =>
    if s.port.xmit.pending + bytes.length < 2 ^ xmitShift then
      some (s.setPort (s.port.append bytes)).startTx
    else none
  | .sendXchar ch => some (s.setPort { s.port with xChar := ch }).startTx
  | .halt stopped hwStopped =>
    let p := { s.port with stopped := stopped, hwStopped := hwStopped }
    if s.port.txStopped → p.txStopped then some (s.setPort p) else none
  | .resume stopped hwStopped =>
    some (s.setPort { s.port with stopped := stopped, hwStopped := hwStopped }).startTx
  | .stopTx => some s.stopTx
  | .handleIrq iir => some (s.handleIrq tty iir).2
  | .backupTimeout => some s.backupTimeout
  | .hardware c => some { s with chip := c }

/-- The bytes that a run appends to the ring. -/
def appended : List (TxCall C) → List (BitVec 8)
  | [] => []
  | .write bytes :: es => bytes ++ appended es
  | _ :: es => appended es

/-- **The step drops what waits**: it stops the transmitter while something is to be sent, or for
CTS while a flow control character is. -/
def TxCall.Drops (s : Sys C) : TxCall C → Prop
  | .stopTx => s.port.Owes
  | .handleIrq iir =>
    ¬ Any iir iirNoInt ∧ (s.irqReceive tty).2.ctsEffect tty = .stop ∧ s.port.xChar ≠ 0#8
  | _ => False

/-- **What the transmitter is for**: what has been written, and is left in the ring, are the bytes
appended; none was written while transmission was stopped; and the transmitter is armed. -/
structure Transmits (t : Sys C) (bytes : List (BitVec 8)) : Prop where
  stream : t.written ++ t.port.xmit.contents = bytes
  stopped : ∀ x ∈ t.sent, ¬ x.WhileStopped
  armed : t.Armed

/-- A port that has just been started. -/
structure Started (s : Sys C) : Prop where
  sent : s.sent = []
  circEmpty : s.port.circEmpty
  xChar : s.port.xChar = 0#8

/-- A call adds to the stream what it appends. -/
theorem TxCall.step_stream {s t : Sys C} {e : TxCall C} (h : e.step tty s = some t) :
    t.stream = s.stream ++ appended [e] := by
  have hdelivers : ∀ {t : Sys C}, s.Delivers t → t.stream = s.stream ++ [] := by
    intro t ht
    rw [ht.stream, List.append_nil]
  cases e with
  | write bytes =>
    obtain ⟨hfits, heq⟩ := Option.ite_none_right_eq_some.mp h
    have hput := CircBuf.contents_foldl_put (c := s.port.xmit) bytes hfits
    have hstart := (Sys.delivers_startTx (s.setPort (s.port.append bytes))).stream
    have happended : appended [(.write bytes : TxCall C)] = bytes := List.append_nil bytes
    have hset : (s.setPort (s.port.append bytes)).stream =
        s.written ++ (bytes.foldl CircBuf.put s.port.xmit).contents := rfl
    rw [← Option.some.inj heq, hstart, hset, hput, happended, Sys.stream, List.append_assoc]
  | sendXchar ch =>
    exact Option.some.inj h ▸ hdelivers ((Sys.delivers_startTx _).of_setPort rfl)
  | halt stopped hwStopped =>
    obtain ⟨-, heq⟩ := Option.ite_none_right_eq_some.mp h
    exact Option.some.inj heq ▸ hdelivers (Sys.delivers_setPort rfl)
  | resume stopped hwStopped =>
    exact Option.some.inj h ▸ hdelivers ((Sys.delivers_startTx _).of_setPort rfl)
  | stopTx => exact Option.some.inj h ▸ hdelivers s.delivers_stopTx
  | handleIrq iir => exact Option.some.inj h ▸ hdelivers (s.delivers_handleIrq tty iir)
  | backupTimeout => exact Option.some.inj h ▸ hdelivers s.delivers_backupTimeout
  | hardware c => exact Option.some.inj h ▸ hdelivers ⟨rfl, id⟩

theorem TxCall.step_stopped {s t : Sys C} {e : TxCall C} (h : e.step tty s = some t)
    (hs : ∀ x ∈ s.sent, ¬ x.WhileStopped) : ∀ x ∈ t.sent, ¬ x.WhileStopped := by
  cases e with
  | write bytes =>
    obtain ⟨-, heq⟩ := Option.ite_none_right_eq_some.mp h
    exact Option.some.inj heq ▸ (Sys.delivers_startTx _).stopped hs
  | sendXchar ch => exact Option.some.inj h ▸ (Sys.delivers_startTx _).stopped hs
  | halt stopped hwStopped =>
    obtain ⟨-, heq⟩ := Option.ite_none_right_eq_some.mp h
    exact Option.some.inj heq ▸ hs
  | resume stopped hwStopped => exact Option.some.inj h ▸ (Sys.delivers_startTx _).stopped hs
  | stopTx => exact Option.some.inj h ▸ s.delivers_stopTx.stopped hs
  | handleIrq iir => exact Option.some.inj h ▸ (s.delivers_handleIrq tty iir).stopped hs
  | backupTimeout => exact Option.some.inj h ▸ s.delivers_backupTimeout.stopped hs
  | hardware c => exact Option.some.inj h ▸ hs

/-- **One step** keeps the transmitter armed unless it drops what waits. -/
theorem TxCall.step_armed_iff {s t : Sys C} {e : TxCall C} (h : e.step tty s = some t)
    (hs : s.Armed) : t.Armed ↔ ¬ e.Drops tty s := by
  have hnever : ∀ {t : Sys C}, t.Armed → (t.Armed ↔ ¬ False) := fun ht => ⟨fun _ => id, fun _ => ht⟩
  cases e with
  | write bytes =>
    obtain ⟨-, heq⟩ := Option.ite_none_right_eq_some.mp h
    exact Option.some.inj heq ▸ hnever (Sys.armed_startTx _)
  | sendXchar ch => exact Option.some.inj h ▸ hnever (Sys.armed_startTx _)
  | halt stopped hwStopped =>
    obtain ⟨hstays, heq⟩ := Option.ite_none_right_eq_some.mp h
    refine Option.some.inj heq ▸ hnever ?_
    rintro (hx | ⟨hring, hstop⟩)
    · exact hs (Or.inl hx)
    · exact hs (Or.inr ⟨hring, fun hwas => hstop (hstays hwas)⟩)
  | resume stopped hwStopped => exact Option.some.inj h ▸ hnever (Sys.armed_startTx _)
  | stopTx => exact Option.some.inj h ▸ s.armed_stopTx_iff
  | handleIrq iir => exact Option.some.inj h ▸ Sys.armed_handleIrq_iff tty hs iir
  | backupTimeout => exact Option.some.inj h ▸ hnever (Sys.armed_backupTimeout hs)
  | hardware c => exact Option.some.inj h ▸ hnever hs

theorem appended_cons (e : TxCall C) (es : List (TxCall C)) :
    appended (e :: es) = appended [e] ++ appended es := by
  cases e with
  | write bytes =>
    show bytes ++ appended es = bytes ++ [] ++ appended es
    rw [List.append_nil]
  | _ => rfl

/-- **A whole run** keeps the stream, and writes nothing while transmission is stopped. -/
theorem exec_stream {es : List (TxCall C)} {s t : Sys C}
    (h : exec (TxCall.step tty) s es = some t) :
    t.stream = s.stream ++ appended es ∧
      ((∀ x ∈ s.sent, ¬ x.WhileStopped) → ∀ x ∈ t.sent, ¬ x.WhileStopped) := by
  induction es generalizing s with
  | nil =>
    rw [exec_nil, Option.some_inj] at h
    subst h
    exact ⟨(List.append_nil _).symm, id⟩
  | cons e es ih =>
    obtain ⟨u, hstep, hrun⟩ := exec_cons.mp h
    obtain ⟨hstream, hstopped⟩ := ih hrun
    refine ⟨?_, fun hs => hstopped (TxCall.step_stopped tty hstep hs)⟩
    rw [hstream, TxCall.step_stream tty hstep, appended_cons e es, List.append_assoc]

theorem TxCall.forall_armed_iff {s : Sys C} {e : TxCall C} (hs : s.Armed) :
    (∀ t, e.step tty s = some t → t.Armed) ↔ ¬ e.Drops tty s := by
  constructor
  · intro hall hdrop
    cases e with
    | stopTx => exact s.armed_stopTx_iff.mp (hall _ rfl) hdrop
    | handleIrq iir => exact (Sys.armed_handleIrq_iff tty hs iir).mp (hall _ rfl) hdrop
    | _ => exact hdrop
  · exact fun hdrop t ht => (TxCall.step_armed_iff tty ht hs).mpr hdrop

/-- **The contract of the transmitter.**  From a port that has just been started, every state of a
run meets the contract, and every run of the transmitter writes at most one burst, exactly if no
step of the run drops what waits. -/
theorem keepsContract_iff (tty : SerialTty) (s : Sys C) (hs : Started s) (es : List (TxCall C)) :
    ((∀ es₁ es₂ t, es = es₁ ++ es₂ → exec (TxCall.step tty) s es₁ = some t →
        Transmits t (appended es₁)) ∧
      ∀ u : Sys C, u.txChars.sent.length ≤ u.sent.length + max 1 u.port.txLoadsz.toNat) ↔
      Along (TxCall.step tty) (fun s e => ¬ e.Drops tty s) s es := by
  have harmed : s.Armed := by
    rintro (hx | ⟨hring, -⟩)
    · exact absurd hs.xChar hx
    · exact absurd hs.circEmpty hring
  have hempty : s.stream = [] := by
    rw [Sys.stream, Sys.written, hs.sent, CircBuf.contents_eq_nil_iff.mpr hs.circEmpty]
    rfl
  have hnone : ∀ x ∈ s.sent, ¬ x.WhileStopped := by
    rw [hs.sent]
    exact nofun
  have htransmits : ∀ es₁ t, exec (TxCall.step tty) s es₁ = some t →
      (Transmits t (appended es₁) ↔ t.Armed) := by
    intro es₁ t hrun
    obtain ⟨hstream, hstopped⟩ := exec_stream tty hrun
    rw [hempty, List.nil_append] at hstream
    exact ⟨Transmits.armed, fun ht => ⟨hstream, hstopped hnone, ht⟩⟩
  have hstep : ∀ (s : Sys C) (e : TxCall C) (t : Sys C), s.Armed →
      (∀ t, e.step tty s = some t → t.Armed) → e.step tty s = some t → t.Armed :=
    fun _ _ t _ hall ht => hall t ht
  have hcongr : Along (TxCall.step tty) (fun s e => ∀ t, e.step tty s = some t → t.Armed) s es ↔
      Along (TxCall.step tty) (fun s e => ¬ e.Drops tty s) s es :=
    Along.congr hstep (fun s e hs => TxCall.forall_armed_iff tty hs) harmed
  have hreached : Along (TxCall.step tty) (fun s e => ¬ e.Drops tty s) s es ↔
      ∀ es₁ es₂ t, es = es₁ ++ es₂ → exec (TxCall.step tty) s es₁ = some t → t.Armed := by
    rw [forall_reached_iff, hcongr]
    exact (and_iff_right harmed).symm
  rw [hreached]
  constructor
  · rintro ⟨hall, -⟩ es₁ es₂ t heq hrun
    exact (htransmits es₁ t hrun).mp (hall es₁ es₂ t heq hrun)
  · intro hall
    refine ⟨fun es₁ es₂ t heq hrun => (htransmits es₁ t hrun).mpr (hall es₁ es₂ t heq hrun), ?_⟩
    exact Sys.length_sent_txChars

/-- An XOFF is to be sent, and the user stops the output before the chip has interrupted. -/
def stopBeforeXoff : List (TxCall idleChip) :=
  [.write [0x41#8, 0x42#8], .sendXchar 0x13#8, .halt true false, .stopTx]

/-- The condition, on that run. -/
theorem keepsContract_iff_stopBeforeXoff :
    ((∀ es₁ es₂ t, stopBeforeXoff = es₁ ++ es₂ →
        exec (TxCall.step quietTty) openSys es₁ = some t → Transmits t (appended es₁)) ∧
      ∀ u : Sys idleChip,
        u.txChars.sent.length ≤ u.sent.length + max 1 u.port.txLoadsz.toNat) ↔
      Along (TxCall.step quietTty) (fun s e => ¬ TxCall.Drops quietTty s e) openSys
        stopBeforeXoff :=
  keepsContract_iff quietTty openSys ⟨rfl, rfl, rfl⟩ stopBeforeXoff

/-- The claim that the transmitter is always armed fails there. -/
theorem not_keepsContract :
    ¬ ∀ (C : Chip) (tty : SerialTty) (s : Sys C), Started s → ∀ es : List (TxCall C),
      ∀ es₁ es₂ t, es = es₁ ++ es₂ → exec (TxCall.step tty) s es₁ = some t →
        Transmits t (appended es₁) := by
  intro hclaim
  have hdropped : (exec (TxCall.step quietTty) openSys stopBeforeXoff).map
      (fun t => decide (t.port.Owes ∧ ¬ Any t.port.ier ierThri)) = some true := by
    decide +kernel
  obtain ⟨t, hrun, htrue⟩ := Option.map_eq_some_iff.mp hdropped
  obtain ⟨howes, hclear⟩ := of_decide_eq_true htrue
  have ht := hclaim idleChip quietTty openSys ⟨rfl, rfl, rfl⟩ stopBeforeXoff stopBeforeXoff [] t
    (List.append_nil _).symm hrun
  exact hclear (ht.armed howes)

end RealtekIpcam.Serial
