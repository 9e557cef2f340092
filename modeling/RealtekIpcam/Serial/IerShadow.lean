import RealtekIpcam.Serial.TxChars

/-!
# The shadow of the interrupt enable register

The port keeps in `up->ier` what it last wrote to the interrupt enable register, and computes from
it what it writes next.  Two operations write the register without the shadow: the backup timer and
the console save it, mask all interrupts, and write the saved value back.  Behind the console the
shadow has not changed.  Behind the backup timer it may have: `serial8250_tx_chars` disarms the
transmitter in both places, and the restore arms it again in one.

`Follows` is what every other operation does: it leaves the register and the shadow alone, or equal.
`shadow_iff` says that from the first line settings after opening the port, the two are equal in
every state of a run exactly if no backup timer of it runs over a transmitter that it disarms.
-/

namespace RealtekIpcam.Serial

open Runs

namespace Sys

variable {C : Chip} {s t u : Sys C}

/-! ## Following -/

def Shadowed (s : Sys C) : Prop := C.ier s.chip = s.port.ier

instance (s : Sys C) : Decidable s.Shadowed := instDecidableEqBitVec _ _

/-- **What an operation may do with the shadow**: leave both alone, or leave them equal. -/
structure Follows (s t : Sys C) : Prop where
  unlatched : s.Unlatched → t.Unlatched
  ier : s.Unlatched → t.Shadowed ∨ t.port.ier = s.port.ier ∧ C.ier t.chip = C.ier s.chip

theorem Quiet.follows (h : Quiet s t) : Follows s t :=
  ⟨h.unlatched, fun _ => Or.inr ⟨h.port_ier, h.chip_ier⟩⟩

theorem Follows.refl (s : Sys C) : Follows s s := (Quiet.refl s).follows

theorem Follows.trans (h : Follows s t) (h' : Follows t u) : Follows s u := by
  refine ⟨fun hs => h'.unlatched (h.unlatched hs), fun hs => ?_⟩
  rcases h'.ier (h.unlatched hs) with hu | ⟨hport, hchip⟩
  · exact Or.inl hu
  · rcases h.ier hs with ht | ⟨hport', hchip'⟩
    · refine Or.inl ?_
      rw [Shadowed, hchip, hport]
      exact ht
    · exact Or.inr ⟨hport.trans hport', hchip.trans hchip'⟩

theorem Follows.shadowed (h : Follows s t) (hs : s.Unlatched) (hsh : s.Shadowed) :
    t.Shadowed := by
  rcases h.ier hs with ht | ⟨hport, hchip⟩
  · exact ht
  · rw [Shadowed, hport, hchip]
    exact hsh

theorem Follows.of_setPort {p : Port} (h : Follows (s.setPort p) t)
    (hier : p.ier = s.port.ier) : Follows s t :=
  (quiet_setPort hier).follows.trans h

theorem follows_ite {c : Prop} [Decidable c] (h : Follows s t) (h' : Follows s u) :
    Follows s (if c then t else u) := by
  split
  · exact h
  · exact h'

/-! ## The operations follow -/

theorem unlatched_serialOut_ier (v : BitVec 8) (hs : s.Unlatched) :
    (s.serialOut .ier v).Unlatched := by
  rw [Unlatched, serialOut, C.lcr_write, if_neg Reg.noConfusion]
  exact hs

theorem ier_serialOut_ier (v : BitVec 8) (hs : s.Unlatched) :
    C.ier (s.serialOut .ier v).chip = v := by
  rw [serialOut, C.ier_write, if_pos ⟨rfl, hs⟩]

theorem follows_setIer (s : Sys C) (v : BitVec 8) : Follows s (s.setIer v) :=
  have hset : s.Unlatched → (s.setPort { s.port with ier := v }).Unlatched := id
  ⟨fun hs => unlatched_serialOut_ier v (hset hs), fun hs => Or.inl (ier_serialOut_ier v (hset hs))⟩

theorem follows_setThri (s : Sys C) : Follows s s.setThri :=
  follows_ite (Follows.refl s) (s.follows_setIer _)

theorem follows_clearThri (s : Sys C) : Follows s s.clearThri :=
  follows_ite (s.follows_setIer _) (Follows.refl s)

theorem follows_txChars (s : Sys C) : Follows s s.txChars := by
  refine follows_ite s.quiet_xcharOut.follows (follows_ite s.follows_clearThri
    (follows_ite s.follows_clearThri ?_))
  have hloop := quiet_txLoop s.port.xmit.pending s.port.txLoadsz s
  exact follows_ite (hloop.follows.trans (follows_clearThri _)) hloop.follows

theorem follows_stopRx (s : Sys C) : Follows s s.stopRx :=
  (follows_setIer _ _).of_setPort rfl

theorem follows_overrunBackoffWork (s : Sys C) : Follows s s.overrunBackoffWork :=
  (follows_setIer _ _).of_setPort rfl

theorem follows_disableMs (s : Sys C) : Follows s s.disableMs :=
  follows_ite (Follows.refl s) (s.follows_setIer _)

theorem follows_enableMs (s : Sys C) : Follows s s.enableMs :=
  follows_ite (Follows.refl s) (s.follows_setIer _)

variable (tty : SerialTty)

theorem quiet_readChar (s : Sys C) (lsr : BitVec 8) : Quiet s (s.readChar tty lsr) := by
  have hread : Quiet s (if Any lsr lsrDr then s.serialIn .data else (0#8, s)).2 := by
    split
    · exact quiet_serialIn s .data
    · exact Quiet.refl s
  rw [readChar]
  refine hread.trans (quiet_ite (quiet_setPort rfl) (quiet_ite (quiet_setPort rfl) ?_))
  exact ⟨rfl, rfl, id⟩

theorem quiet_rxLoop (n : Nat) (lsr : BitVec 8) (s : Sys C) : Quiet s (rxLoop tty n lsr s).2 := by
  induction n generalizing lsr s with
  | zero => exact quiet_readChar tty s lsr
  | succ n ih =>
    have hread := (quiet_readChar tty s lsr).trans (quiet_serialIn (s.readChar tty lsr) .lsr)
    rw [rxLoop]
    split
    · exact hread.trans (ih _ _)
    · exact hread

theorem quiet_irqReceive (s : Sys C) : Quiet s (s.irqReceive tty).2 := by
  rw [irqReceive]
  split
  · exact (quiet_serialIn s .lsr).trans (quiet_rxLoop tty _ _ _)
  · exact quiet_serialIn s .lsr

theorem follows_applyCts (s : Sys C) (change : CtsChange) : Follows s (s.applyCts change) := by
  cases change with
  | none => exact Follows.refl s
  | start => exact (follows_setThri _).of_setPort rfl
  | stop => exact (follows_clearThri _).of_setPort rfl

theorem follows_modemStatus (s : Sys C) : Follows s (s.modemStatus tty).2 := by
  have hread : Quiet s ((s.serialIn .msr).2.setPort
      { (s.serialIn .msr).2.port with msrSavedFlags := 0#8 }) :=
    (quiet_serialIn s .msr).trans (quiet_setPort rfl)
  rw [modemStatus]
  dsimp only
  split
  · exact hread.follows.trans
      ((follows_ite (follows_applyCts _ _) (Follows.refl _)).of_setPort rfl)
  · exact hread.follows

theorem follows_handleIrq (s : Sys C) (iir : BitVec 8) : Follows s (s.handleIrq tty iir).2 := by
  rw [handleIrq]
  split
  · exact Follows.refl s
  · exact ((quiet_irqReceive tty s).follows.trans (follows_modemStatus tty _)).trans
      (follows_ite (follows_txChars _) (Follows.refl _))

/-! ## The console -/

theorem quiet_waitLsr (bits : BitVec 8) (n : Nat) (s : Sys C) : Quiet s (waitLsr bits n s) := by
  induction n generalizing s with
  | zero => exact Quiet.refl s
  | succ n ih =>
    rw [waitLsr]
    exact ((quiet_serialIn s .lsr).trans (quiet_saveLsr _ _)).trans
      (quiet_ite (Quiet.refl _) (ih _))

theorem quiet_waitCts (n : Nat) (s : Sys C) : Quiet s (waitCts n s) := by
  induction n generalizing s with
  | zero => exact Quiet.refl s
  | succ n ih =>
    rw [waitCts]
    exact ((quiet_serialIn s .msr).trans (quiet_saveMsr _ _)).trans
      (quiet_ite (Quiet.refl _) (ih _))

theorem quiet_waitForXmitr (s : Sys C) (bits : BitVec 8) : Quiet s (s.waitForXmitr bits) :=
  (quiet_waitLsr bits _ s).trans (quiet_ite (quiet_waitCts _ _) (Quiet.refl _))

theorem quiet_consolePutchar (s : Sys C) (ch : BitVec 8) : Quiet s (s.consolePutchar ch) :=
  (quiet_waitForXmitr s lsrThre).trans (quiet_transmit _ _)

theorem quiet_putchars (chars : List (BitVec 8)) (s : Sys C) :
    Quiet s (chars.foldl consolePutchar s) := by
  induction chars generalizing s with
  | nil => exact Quiet.refl s
  | cons ch chars ih => exact (quiet_consolePutchar s ch).trans (ih _)

theorem latched_or (v : BitVec 8) : Latched (v ||| lcrDlab) := by
  intro h
  rw [BitVec.and_comm, BitVec.and_or_distrib_left, BitVec.and_self] at h
  have hbit := congrArg (BitVec.getLsbD · 7) h
  simp [lcrDlab] at hbit

theorem setDivisor_ier (s : Sys C) (quot : BitVec 16) :
    (s.setDivisor quot).port = s.port ∧ C.ier (s.setDivisor quot).chip = C.ier s.chip := by
  refine ⟨rfl, ?_⟩
  have hlatched : ∀ v, Latched v → C.ier (((s.serialOut .lcr v).serialOut .data
      (quot.setWidth 8)).serialOut .ier ((quot >>> 8).setWidth 8)).chip = C.ier s.chip := by
    intro v hv
    simp [serialOut, C.ier_write, C.lcr_write, hv]
  rw [setDivisor]
  refine hlatched _ ?_
  split
  · decide
  · exact latched_or _

theorem quiet_divisor (s : Sys C) (quot : BitVec 16) :
    Quiet s ((s.setDivisor quot).serialOut .lcr s.port.lcr.1) := by
  obtain ⟨hport, hier⟩ := setDivisor_ier s quot
  refine ⟨congrArg Port.ier hport, ?_, fun _ => ?_⟩
  · rw [serialOut, C.ier_write, if_neg fun h => Reg.noConfusion h.1]
    exact hier
  · rw [Unlatched, serialOut, C.lcr_write, if_pos rfl]
    exact s.port.lcr.2

theorem quiet_consoleRestore (s : Sys C) (quot : BitVec 16) : Quiet s (s.consoleRestore quot) :=
  (quiet_divisor s quot).trans (quiet_serialOut _ _ nofun nofun)

theorem quiet_checkCanary (s : Sys C) (quot : BitVec 16) : Quiet s (s.checkCanary quot) := by
  have hread := quiet_serialIn s .scr
  refine quiet_ite (quiet_ite ?_ hread) (Quiet.refl s)
  exact (hread.trans (quiet_consoleRestore _ quot)).trans (quiet_setPort rfl)

theorem quiet_consoleService (s : Sys C) (quot : BitVec 16) (chars : List (BitVec 8)) :
    Quiet s (s.consoleService quot chars) :=
  ((quiet_checkCanary s quot).trans (quiet_putchars chars _)).trans (quiet_waitForXmitr _ _)

theorem maskIer_unlatched (hs : s.Unlatched) : s.maskIer.Unlatched :=
  unlatched_serialOut_ier 0#8 ((quiet_serialIn s .ier).unlatched hs)

theorem restore_ier (hs : s.Unlatched) (ht : t.Unlatched) :
    C.ier (t.serialOut .ier (s.serialIn .ier).1).chip = C.ier s.chip := by
  rw [ier_serialOut_ier _ ht]
  exact C.read_ier s.chip hs

theorem follows_consoleWrite (s : Sys C) (quot : BitVec 16) (chars : List (BitVec 8)) :
    Follows s (s.consoleWrite tty quot chars) := by
  have hserve := quiet_consoleService s.maskIer quot chars
  have hrestore : Follows s
      ((s.maskIer.consoleService quot chars).serialOut .ier (s.serialIn .ier).1) := by
    constructor
    · exact fun hs => unlatched_serialOut_ier _ (hserve.unlatched (maskIer_unlatched hs))
    · exact fun hs => Or.inr ⟨hserve.port_ier,
        restore_ier hs (hserve.unlatched (maskIer_unlatched hs))⟩
  exact hrestore.trans (follows_ite (follows_modemStatus tty _) (Follows.refl _))

theorem quiet_setFcr (s : Sys C) : Quiet s s.setFcr :=
  (quiet_ite (quiet_serialOut _ _ Reg.noConfusion Reg.noConfusion) (Quiet.refl _)).trans
    (quiet_serialOut _ _ Reg.noConfusion Reg.noConfusion)

theorem quiet_setMctrl (s : Sys C) : Quiet s s.setMctrl :=
  quiet_serialOut _ _ nofun nofun

theorem setTermios_shadowed (tm : Termios) (hs : s.Unlatched) :
    (s.setTermios tm).Unlatched ∧ (s.setTermios tm).Shadowed := by
  obtain ⟨v, hv⟩ : ∃ v, v = (s.setPort (s.port.withTermios tm)).setIer
      (s.port.withTermios tm).ier := ⟨_, rfl⟩
  have hset : (s.setPort (s.port.withTermios tm)).Unlatched := hs
  have hvu : v.Unlatched := hv ▸ (follows_setIer _ _).unlatched hset
  have hvs : v.Shadowed := by
    rw [hv]
    exact ier_serialOut_ier (s.port.withTermios tm).ier hset
  have hquiet : Quiet v (s.setTermios tm) := by
    rw [setTermios, ← hv]
    exact (((quiet_divisor v tm.quot).trans (quiet_setFcr _)).trans (quiet_setMctrl _)).trans
      (quiet_serialIn _ _)
  exact ⟨hquiet.unlatched hvu, hquiet.follows.shadowed hvu hvs⟩

theorem follows_setTermios (s : Sys C) (tm : Termios) : Follows s (s.setTermios tm) :=
  ⟨fun hs => (setTermios_shadowed tm hs).1, fun hs => Or.inl (setTermios_shadowed tm hs).2⟩

/-! ## The backup timer -/

/-- What the backup timer reads makes it run the transmitter. -/
def BackupServes (s : Sys C) : Prop :=
  ¬ Any (backupIir s.port (s.serialIn .iir).1 ((s.serialIn .iir).2.serialIn .lsr).1) iirNoInt

instance (s : Sys C) : Decidable s.BackupServes := instDecidableNot

theorem quiet_backupReads (s : Sys C) : Quiet s (((s.serialIn .iir).2.serialIn .lsr).2.saveLsr
    ((s.serialIn .iir).2.serialIn .lsr).1) :=
  ((quiet_serialIn s .iir).trans (quiet_serialIn _ .lsr)).trans (quiet_saveLsr _ _)

theorem follows_backupService (s : Sys C) : Follows s s.backupService :=
  (quiet_backupReads s).follows.trans (follows_ite (Follows.refl _) (follows_txChars _))

theorem backupService_ier (s : Sys C) :
    s.backupService.port.ier =
      if s.BackupServes ∧ s.port.Disarms then s.port.ier &&& ~~~ierThri else s.port.ier := by
  rw [backupService]
  by_cases hserve : s.BackupServes
  · refine (congrArg (fun t : Sys C => t.port.ier) (if_neg hserve)).trans
      ((txChars_ier _).trans ?_)
    show (if s.port.Disarms then s.port.ier &&& ~~~ierThri else s.port.ier) = _
    by_cases hdis : s.port.Disarms
    · rw [if_pos hdis, if_pos ⟨hserve, hdis⟩]
    · rw [if_neg hdis, if_neg fun h => hdis h.2]
  · refine (congrArg (fun t : Sys C => t.port.ier)
      (if_pos (Decidable.not_not.mp hserve))).trans ?_
    rw [if_neg fun h => hserve h.1]
    rfl

/-- **A stale backup**: the backup timer of a port with an interrupt runs over an armed transmitter
that it disarms. -/
def StaleBackup (s : Sys C) : Prop :=
  s.port.irq ≠ 0 ∧ Any s.port.ier ierThri ∧ s.port.Disarms ∧ s.maskIer.BackupServes

instance (s : Sys C) : Decidable s.StaleBackup := instDecidableAnd

theorem backupTimeout_of_irq (hirq : s.port.irq ≠ 0) : s.backupTimeout =
    s.maskIer.backupService.serialOut .ier (s.serialIn .ier).1 := if_pos hirq

theorem maskIer_backupService_unlatched (hs : s.Unlatched) :
    s.maskIer.backupService.Unlatched :=
  (follows_backupService s.maskIer).unlatched (maskIer_unlatched hs)

theorem backupTimeout_unlatched (hs : s.Unlatched) : s.backupTimeout.Unlatched := by
  by_cases hirq : s.port.irq ≠ 0
  · rw [backupTimeout_of_irq hirq]
    exact unlatched_serialOut_ier _ (maskIer_backupService_unlatched hs)
  · rw [backupTimeout, if_neg hirq]
    exact (follows_backupService s).unlatched hs

/-- **The restore of the backup timer**, and what it does to a shadow that was right. -/
theorem backupTimeout_shadowed_iff (hs : s.Unlatched) (hsh : s.Shadowed) :
    s.backupTimeout.Shadowed ↔ ¬ s.StaleBackup := by
  by_cases hirq : s.port.irq ≠ 0
  · have hport : (s.maskIer.backupService.serialOut .ier (s.serialIn .ier).1).port.ier =
        if s.maskIer.BackupServes ∧ s.port.Disarms then s.port.ier &&& ~~~ierThri
        else s.port.ier := backupService_ier s.maskIer
    rw [backupTimeout_of_irq hirq, Shadowed,
      restore_ier hs (maskIer_backupService_unlatched hs), hport, hsh]
    by_cases hserve : s.maskIer.BackupServes ∧ s.port.Disarms
    · rw [if_pos hserve]
      constructor
      · intro heq hstale
        exact and_not_ne_of_any hstale.2.1 heq.symm
      · intro hstale
        refine (and_not_of_not_any fun hthri => hstale ?_).symm
        exact ⟨hirq, hthri, hserve.2, hserve.1⟩
    · rw [if_neg hserve]
      exact ⟨fun _ h => hserve ⟨h.2.2.2, h.2.2.1⟩, fun _ => rfl⟩
  · rw [backupTimeout, if_neg hirq]
    exact ⟨fun _ h => hirq h.1, fun _ => (follows_backupService s).shadowed hs hsh⟩

/-! ## Opening -/

theorem lcr_serialIn (s : Sys C) (r : Reg) : C.lcr (s.serialIn r).2.chip = C.lcr s.chip :=
  C.lcr_read _ _

theorem lcr_serialOut (s : Sys C) (r : Reg) (v : BitVec 8) :
    C.lcr (s.serialOut r v).chip = if r = .lcr then v else C.lcr s.chip :=
  C.lcr_write _ _ _

theorem lcr_clearInterrupts (s : Sys C) : C.lcr s.clearInterrupts.chip = C.lcr s.chip := by
  simp only [clearInterrupts, discard, lcr_serialIn]

theorem lcr_raiseLines (s : Sys C) : C.lcr s.raiseLines.chip = C.lcr s.chip := by
  rw [raiseLines, setMctrl, lcr_serialOut, if_neg Reg.noConfusion]
  rfl

theorem lcr_testTxen (s : Sys C) : C.lcr s.testTxen.chip = C.lcr s.chip := by
  rw [testTxen]
  split
  · rfl
  · show C.lcr (((((s.serialOut .ier ierThri).serialIn .lsr).2.serialIn .iir).2.serialOut .ier
      0#8)).chip = C.lcr s.chip
    rw [lcr_serialOut, if_neg nofun, lcr_serialIn, lcr_serialIn, lcr_serialOut,
      if_neg Reg.noConfusion]

theorem initUart_unlatched (s : Sys C) : s.initUart.Unlatched := by
  rw [initUart, Unlatched, setPort, lcr_clearInterrupts, lcr_testTxen, lcr_raiseLines,
    lcr_serialOut, if_pos rfl]
  decide

theorem doStartup_unlatched {config : Config} {setupIrq : Int}
    (h : (s.doStartup config setupIrq).1 = 0) : (s.doStartup config setupIrq).2.Unlatched := by
  rw [doStartup] at h ⊢
  split at h
  · cases h
  · rename_i hcheck
    rw [if_neg hcheck]
    split at h
    · rename_i hirq
      exact absurd h hirq
    · rename_i hirq
      rw [if_neg hirq]
      exact initUart_unlatched _

end Sys

/-! ## Runs -/

/-- A call between opening and closing the port, or a step of its surroundings. -/
inductive PortCall (C : Chip) where
  | startTx
  | stopTx
  | stopRx
  | enableMs
  | disableMs
  | setTermios (tm : Termios)
  | handleIrq (iir : BitVec 8)
  | backupTimeout
  | overrunBackoffWork
  | consoleWrite (quot : BitVec 16) (chars : List (BitVec 8))
  /-- The serial core and the tty layer change the port, but not the shadow. -/
  | core (f : Port → Port)
  /-- The chip changes, but not what is only written by the driver. -/
  | hardware (c : C.State)

variable {C : Chip} (tty : SerialTty)

def PortCall.step (s : Sys C) : PortCall C → Option (Sys C)
  | .startTx => some s.startTx
  | .stopTx => some s.stopTx
  | .stopRx => some s.stopRx
  | .enableMs => some s.enableMs
  | .disableMs => some s.disableMs
  | .setTermios tm => some (s.setTermios tm)
  | .handleIrq iir => some (s.handleIrq tty iir).2
  | .backupTimeout => some s.backupTimeout
  | .overrunBackoffWork => some s.overrunBackoffWork
  | .consoleWrite quot chars => some (s.consoleWrite tty quot chars)
  | .core f => if (f s.port).ier = s.port.ier then some (s.setPort (f s.port)) else none
  | .hardware c =>
    if C.ier c = C.ier s.chip ∧ C.lcr c = C.lcr s.chip then some { s with chip := c } else none

def PortCall.Stale (s : Sys C) : PortCall C → Prop
  | .backupTimeout => s.StaleBackup
  | _ => False

theorem PortCall.follows {s t : Sys C} {e : PortCall C} (h : e.step tty s = some t)
    (hne : e ≠ .backupTimeout) : s.Follows t := by
  cases e with
  | startTx => exact Option.some.inj h ▸ s.follows_setThri
  | stopTx => exact Option.some.inj h ▸ s.follows_clearThri
  | stopRx => exact Option.some.inj h ▸ s.follows_stopRx
  | enableMs => exact Option.some.inj h ▸ s.follows_enableMs
  | disableMs => exact Option.some.inj h ▸ s.follows_disableMs
  | setTermios tm => exact Option.some.inj h ▸ s.follows_setTermios tm
  | handleIrq iir => exact Option.some.inj h ▸ s.follows_handleIrq tty iir
  | backupTimeout => exact absurd rfl hne
  | overrunBackoffWork => exact Option.some.inj h ▸ s.follows_overrunBackoffWork
  | consoleWrite quot chars => exact Option.some.inj h ▸ s.follows_consoleWrite tty quot chars
  | core f =>
    obtain ⟨hier, heq⟩ := Option.ite_none_right_eq_some.mp h
    exact Option.some.inj heq ▸ (Sys.quiet_setPort hier).follows
  | hardware c =>
    obtain ⟨⟨hier, hlcr⟩, heq⟩ := Option.ite_none_right_eq_some.mp h
    refine Option.some.inj heq ▸ Sys.Quiet.follows ⟨rfl, hier, fun hs => ?_⟩
    rw [Sys.Unlatched, hlcr]
    exact hs

theorem PortCall.step_unlatched {s t : Sys C} {e : PortCall C} (h : e.step tty s = some t)
    (hs : s.Unlatched) : t.Unlatched := by
  by_cases hne : e = .backupTimeout
  · subst hne
    exact Option.some.inj h ▸ Sys.backupTimeout_unlatched hs
  · exact (PortCall.follows tty h hne).unlatched hs

theorem PortCall.step_shadowed_iff {s t : Sys C} {e : PortCall C} (h : e.step tty s = some t)
    (hs : s.Unlatched) (hsh : s.Shadowed) : t.Shadowed ↔ ¬ e.Stale s := by
  by_cases hne : e = .backupTimeout
  · subst hne
    exact Option.some.inj h ▸ Sys.backupTimeout_shadowed_iff hs hsh
  · have hstale : ¬ e.Stale s := by
      cases e with
      | backupTimeout => exact absurd rfl hne
      | _ => exact id
    exact ⟨fun _ => hstale, fun _ => (PortCall.follows tty h hne).shadowed hs hsh⟩

theorem PortCall.exec_unlatched {s t : Sys C} {es : List (PortCall C)} (hs : s.Unlatched)
    (h : exec (PortCall.step tty) s es = some t) : t.Unlatched :=
  exec_invariant (C := fun _ _ => True)
    (fun _ _ _ hs _ hstep => PortCall.step_unlatched tty hstep hs) hs
    (Along.of_forall fun _ _ => trivial) h

theorem PortCall.forall_shadowed_iff {s : Sys C} {e : PortCall C} (hs : s.Unlatched)
    (hsh : s.Shadowed) : (∀ t, e.step tty s = some t → t.Shadowed) ↔ ¬ e.Stale s := by
  constructor
  · intro hall hstale
    cases e with
    | backupTimeout =>
      exact (Sys.backupTimeout_shadowed_iff hs hsh).mp (hall _ rfl) hstale
    | _ => exact hstale
  · exact fun hstale t ht => (PortCall.step_shadowed_iff tty ht hs hsh).mpr hstale

/-- **The shadow of an open port.**  After opening the port, any calls and then line settings, the
interrupt enable register equals its shadow in every state that further calls reach, exactly if none
of them is a stale backup. -/
theorem shadow_iff (tty : SerialTty) (s₀ s₁ : Sys C) (config : Sys.Config) (setupIrq : Int)
    (hopen : (s₀.doStartup config setupIrq).1 = 0) (es₀ es : List (PortCall C)) (tm : Termios)
    (hrun : exec (PortCall.step tty) (s₀.doStartup config setupIrq).2 (es₀ ++ [.setTermios tm]) =
      some s₁) :
    (∀ es₁ es₂ t, es = es₁ ++ es₂ → exec (PortCall.step tty) s₁ es₁ = some t → t.Shadowed) ↔
      Along (PortCall.step tty) (fun s e => ¬ e.Stale s) s₁ es := by
  obtain ⟨s, hrun₀, hlast⟩ := exec_append.mp hrun
  have hs := PortCall.exec_unlatched tty (Sys.doStartup_unlatched hopen) hrun₀
  have hset : s.setTermios tm = s₁ := Option.some.inj (exec_singleton.mp hlast)
  obtain ⟨hu, hsh⟩ := Sys.setTermios_shadowed tm hs
  rw [hset] at hu hsh
  have hstep : ∀ (s : Sys C) (e : PortCall C) (t : Sys C), s.Unlatched ∧ s.Shadowed →
      (∀ t, e.step tty s = some t → t.Shadowed) → e.step tty s = some t →
      t.Unlatched ∧ t.Shadowed := by
    intro s e t hs hall ht
    exact ⟨PortCall.step_unlatched tty ht hs.1, hall t ht⟩
  have hcongr : Along (PortCall.step tty) (fun s e => ∀ t, e.step tty s = some t → t.Shadowed)
        s₁ es ↔
      Along (PortCall.step tty) (fun s e => ¬ e.Stale s) s₁ es :=
    Along.congr hstep (fun s e hs => PortCall.forall_shadowed_iff tty hs.1 hs.2) ⟨hu, hsh⟩
  rw [forall_reached_iff, hcongr]
  exact and_iff_right hsh

/-- The tty layer appends a byte to the ring. -/
def appendByte (ch : BitVec 8) : PortCall idleChip :=
  .core fun p => { p with xmit := p.xmit.put ch }

/-- A byte is written, and sent by the backup timer. -/
def backupRun : List (PortCall idleChip) := [appendByte 0x41#8, .startTx, .backupTimeout]

/-- The condition on the run in which the backup timer drains the ring. -/
theorem shadow_iff_backupRun :
    (∀ es₁ es₂ t, backupRun = es₁ ++ es₂ →
      exec (PortCall.step quietTty) openSys es₁ = some t → t.Shadowed) ↔
      Along (PortCall.step quietTty) (fun s e => ¬ PortCall.Stale s e) openSys backupRun :=
  shadow_iff quietTty closedSys openSys config16550a 0 (by decide +kernel) [] backupRun rawTermios
    rfl

/-- The claim that the register is always its shadow fails there. -/
theorem not_shadowed :
    ¬ ∀ (C : Chip) (tty : SerialTty) (s₀ s₁ : Sys C) (config : Sys.Config) (setupIrq : Int),
      (s₀.doStartup config setupIrq).1 = 0 → ∀ (es₀ es : List (PortCall C)) (tm : Termios),
      exec (PortCall.step tty) (s₀.doStartup config setupIrq).2 (es₀ ++ [.setTermios tm]) =
        some s₁ →
      ∀ es₁ es₂ t, es = es₁ ++ es₂ → exec (PortCall.step tty) s₁ es₁ = some t → t.Shadowed := by
  intro hclaim
  have hstale : (exec (PortCall.step quietTty) openSys backupRun).map
      (fun t => decide t.Shadowed) = some false := by decide +kernel
  obtain ⟨t, hrun, hfalse⟩ := Option.map_eq_some_iff.mp hstale
  exact of_decide_eq_false hfalse
    (hclaim idleChip quietTty closedSys openSys config16550a 0 (by decide +kernel) [] backupRun
      rawTermios rfl backupRun [] t (List.append_nil _).symm hrun)

end RealtekIpcam.Serial
