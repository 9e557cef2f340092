import RealtekIpcam.I2c.MasterRuns

/-!
# The command stream of a transfer

The commands that the driver writes to `IC_DATA_CMD` over all interrupts of a transfer are
meant to be `commandStream`.  Where the driver is within a message is kept in `status`,
`tx_buf` and `tx_buf_len`; that the next command is to have the restart bit is not.  So a
message that is begun when there is no room for its first command loses its restart.
`RestartOk` is the condition that no message is begun so.
-/

namespace RealtekIpcam.I2c

open Transfer

theorem View.id : View id := ⟨fun _ _ h => congrArg isRead h, fun _ _ h => congrArg isStop h⟩

theorem handleTxAbort_neg (source : Word) : handleTxAbort source < 0 := by
  simp only [handleTxAbort]
  split
  · decide
  · split
    · decide
    · split <;> decide

/-- A transfer that returns the number of its messages met no error and has no message in
progress. -/
theorem Transfer.MasterInv.of_result {msgs : List I2cMsg} {f : Word → Word} {t : Transfer}
    (h : t.MasterInv f msgs) (hres : t.i2cDwXferResult = msgs.length) :
    t.Running f msgs (t.atStop = true) ∧ (t.atStop = true → t.Drained msgs) ∧ t.dev.msgErr = 0 ∧
      t.dev.statusWrite = false ∧ t.dev.statusRead = false := by
  have hneg := handleTxAbort_neg t.dev.abortSource
  have hnonneg : (0 : Int) ≤ msgs.length := Int.natCast_nonneg _
  have hmsgErr : t.dev.msgErr ≤ 0 := by
    rcases h with ⟨h, -⟩ | h
    · exact h.msgErr
    · exact h.msgErr
  have hzero : t.dev.msgErr = 0 := by
    by_contra hne
    rw [i2cDwXferResult, if_pos hne] at hres
    omega
  rw [i2cDwXferResult, if_neg (by rw [hzero]; simp)] at hres
  rcases h with ⟨h, hdrained⟩ | h
  · have hcmd := h.cmdErr
    by_cases hidle : ¬ t.dev.cmdErr ∧ ¬ t.dev.statusWrite ∧ ¬ t.dev.statusRead
    · exact ⟨h, hdrained, hzero, by simpa using hidle.2.1, by simpa using hidle.2.2⟩
    · rw [if_neg hidle, hcmd] at hres
      have : (- EIO : Int) = msgs.length := hres
      simp only [ EIO] at this
      omega
  · rw [if_neg (by rw [h.cmdErr]; simp), if_pos h.cmdErr] at hres
    omega

variable {msgs : List I2cMsg}

/-- **The command stream.**  Where every message is begun with room for its first command,
what the driver has written is a prefix of the stream that is meant; it is all of it when no
message is left to write, and when the transfer returns with success. -/
theorem written_commandStream (hp : Plain msgs) (conf : HwConf)
    {es : List MasterEvent} {t : Transfer}
    (hroom : Runs.Along masterStep RestartOk (i2cDwXferInit conf true msgs) es)
    (hrun : Runs.exec masterStep (i2cDwXferInit conf true msgs) es = some t) :
    t.hw.written <+: commandStream msgs ∧
      (t.dev.msgWriteIdx = msgs.length → t.hw.written = commandStream msgs) ∧
      (t.completed = true → t.i2cDwXferResult = msgs.length →
        t.hw.written = commandStream msgs) := by
  have hinv := exec_masterInv hp View.id conf (Or.inr rfl) (hroom.mono fun _ _ => Or.inr) hrun
  have hsent : t.hw.written <+: commandStream msgs ∧
      (t.dev.msgWriteIdx = msgs.length → t.hw.written = commandStream msgs) := by
    rcases hinv with ⟨h, -⟩ | h
    · simpa [writePlace] using h.sent.view_prefix
    · simpa using h.sent
  refine ⟨hsent.1, hsent.2, fun hcompleted hres => ?_⟩
  obtain ⟨h, -, hmsgErr, hwrite, -⟩ := hinv.of_result hres
  have hne : t.hw.written ≠ [] := ((h.seen hcompleted).resolve_left fun herr => herr hmsgErr).1
  refine hsent.2 ?_
  rcases h.begun with hbusy | hidx | herr | hnil
  · rw [hwrite] at hbusy
    cases hbusy
  · exact hidx
  · exact absurd hmsgErr herr
  · exact absurd hnil hne

/-- A message of two bytes that is written. -/
def twoBytes (a b : Byte) : I2cMsg :=
  ⟨0x50, false, false, false, 2, fun off => if off = 0 then a else b⟩

/-- A controller with FIFOs of two entries. -/
def narrowConf : HwConf := ⟨2, 2, 0, true⟩

/-- The controller does the two commands that are in the TX FIFO. -/
def twoCommands : List MasterEvent :=
  [.hw .fetch, .hw (.finish 0), .hw .fetch, .hw (.finish 0)]

/-- A register is written and read: three bytes come in.  The read is begun in the same
interrupt, and finds room for one command. -/
def readRegister : List I2cMsg :=
  [⟨0x50, false, false, false, 1, fun _ => 7⟩, ⟨0x50, true, false, false, 3, fun _ => 0⟩]

/-- The whole transfer. -/
def readRegisterRun : List MasterEvent :=
  [.irq [], .hw .fetch, .hw (.finish 0), .hw .fetch, .hw (.finish 11), .irq [],
    .hw .fetch, .hw (.finish 12), .hw .fetch, .hw (.finish 13), .irq []]

theorem written_readRegister : ∃ t,
    Runs.exec masterStep (i2cDwXferInit narrowConf true readRegister) readRegisterRun = some t ∧
      t.completed = true ∧ t.i2cDwXferResult = 2 ∧ t.hw.written = [0x007, 0x500, 0x100, 0x300] ∧
      t.hw.written = commandStream readRegister := by
  have hobs : (Runs.exec masterStep (i2cDwXferInit narrowConf true readRegister)
      readRegisterRun).map (fun t => (t.completed, t.i2cDwXferResult, t.hw.written)) =
        some (true, 2, [0x007, 0x500, 0x100, 0x300]) := by decide +kernel
  obtain ⟨t, hrun, hobs⟩ := Option.map_eq_some_iff.mp hobs
  simp only [Prod.mk.injEq] at hobs
  exact ⟨t, hrun, hobs.1, hobs.2.1, hobs.2.2,
    (written_commandStream (by decide +kernel) narrowConf (by decide +kernel) hrun).2.2 hobs.1
      hobs.2.1⟩

/-- **The restart is lost** when the first message fills the TX FIFO: the second is begun
without room, and the transfer succeeds all the same. -/
theorem written_lostRestart : Plain [twoBytes 1 2, twoBytes 3 4] ∧ ∃ t,
    Runs.exec masterStep (i2cDwXferInit narrowConf true [twoBytes 1 2, twoBytes 3 4])
        ([.irq []] ++ twoCommands ++ [.irq []] ++ twoCommands ++ [.irq []]) = some t ∧
      t.completed = true ∧ t.i2cDwXferResult = 2 ∧ t.hw.written = [0x001, 0x002, 0x003, 0x204] ∧
      commandStream [twoBytes 1 2, twoBytes 3 4] = [0x001, 0x002, 0x403, 0x204] ∧
      ¬ t.hw.written <+: commandStream [twoBytes 1 2, twoBytes 3 4] := by
  have hobs : (Runs.exec masterStep (i2cDwXferInit narrowConf true [twoBytes 1 2, twoBytes 3 4])
      ([.irq []] ++ twoCommands ++ [.irq []] ++ twoCommands ++ [.irq []])).map
        (fun t => (t.completed, t.i2cDwXferResult, t.hw.written)) =
          some (true, 2, [0x001, 0x002, 0x003, 0x204]) := by decide +kernel
  obtain ⟨t, hrun, hobs⟩ := Option.map_eq_some_iff.mp hobs
  simp only [Prod.mk.injEq] at hobs
  refine ⟨by decide +kernel, t, hrun, hobs.1, hobs.2.1, hobs.2.2, by decide +kernel, ?_⟩
  rw [hobs.2.2]
  decide +kernel

end RealtekIpcam.I2c
