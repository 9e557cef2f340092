import RealtekIpcam.I2c.CommandStream

/-!
# The bytes that a transfer reads

`rx_outstanding` counts the read commands that were written and whose bytes were not taken,
and is kept within the depth of the RX FIFO, so that the FIFO cannot overflow.  A transfer
that returns with success has filled every read message with the bytes that came in, in order.

The last needs that the STOP which woke it is the one after the last command.  A controller
that does not hold the bus when its TX FIFO runs empty sends a STOP of its own then.  The
driver takes it for the end if no message is in progress by that time, and returns success for
a transfer that it has only just written.
-/

namespace RealtekIpcam.I2c

open Transfer

/-- The command without its restart bit. -/
def withoutRestart (cmd : Word) : Word := cmd &&& 0xfffffbff

theorem withoutRestart_isRead (cmd : Word) : isRead (withoutRestart cmd) = isRead cmd := by
  simp [withoutRestart, isRead]

theorem withoutRestart_isStop (cmd : Word) : isStop (withoutRestart cmd) = isStop cmd := by
  simp [withoutRestart, isStop]

theorem View.withoutRestart : View withoutRestart where
  isRead_eq a b h := by
    rw [← withoutRestart_isRead a, h, withoutRestart_isRead]
  isStop_eq a b h := by
    rw [← withoutRestart_isStop a, h, withoutRestart_isStop]

theorem blind_withoutRestart : Blind withoutRestart := by
  intro cmd
  have hbit : (0x400 : Word) &&& 0xfffffbff = 0#32 := by decide
  rw [withoutRestart, withoutRestart, BitVec.and_or_distrib_right, hbit, BitVec.or_zero]

/-- The controller holds the bus; or else, with no error and no message in progress, it was the last
STOP that woke the transfer. -/
def WakeOk (t : Transfer) : Prop :=
  t.hw.conf.holdMaster = false → t.dev.msgErr = 0 → t.dev.cmdErr = false →
    t.dev.statusWrite = false → t.dev.statusRead = false → t.atStop = true
  deriving Decidable

variable {msgs : List I2cMsg}

/-- **Receive integrity.**  The RX FIFO does not overflow, no byte outside of the read
messages is written, and a transfer that was woken by the last STOP and returns with success
has all its bytes where they belong.  For a controller that holds the bus the last STOP is the
only one. -/
theorem received_buffers (hp : Plain msgs) (conf : HwConf) (restartEn : Bool)
    {es : List MasterEvent} {t : Transfer}
    (hrun : Runs.exec masterStep (i2cDwXferInit conf restartEn msgs) es = some t) :
    (t.dev.rxOutstanding = t.hw.written.countP isRead - t.hw.taken.length ∧
      t.dev.rxOutstanding ≤ t.dev.rxFifoDepth ∧ t.hw.rxOver = false) ∧
    (∀ i off, ((msgAt msgs i).rd = false ∨ (msgAt msgs i).len ≤ off) →
      (t.dev.msg i).buf off = (msgAt msgs i).buf off) ∧
    (t.completed = true → WakeOk t → t.i2cDwXferResult = msgs.length →
      t.hw.received.length = readLen msgs ∧
        ∀ i, i < msgs.length → (msgAt msgs i).rd = true → ∀ off, off < (msgAt msgs i).len →
          t.hw.received[readLenBefore msgs i + off]? = some ((t.dev.msg i).buf off)) := by
  have hinv := exec_masterInv hp View.withoutRestart conf (Or.inl blind_withoutRestart)
    (Runs.Along.of_forall fun _ _ => Or.inl blind_withoutRestart) hrun
  have hkept : t.hw.Sound t.dev.rxOutstanding ∧ t.dev.rxFifoDepth = t.hw.conf.rxDepth ∧
      ∀ i, t.dev.msg i = filled msgs t.hw.taken i := by
    rcases hinv with ⟨h, -⟩ | h
    · exact ⟨h.live.sound, h.live.rxDepth, h.live.msg⟩
    · exact ⟨h.down.sound, h.down.rxDepth, h.down.msg⟩
  obtain ⟨hsound, hdepth, hmsg⟩ := hkept
  refine ⟨⟨hsound.outstanding, ?_, hsound.rxOver⟩, fun i off hout => ?_,
    fun hcompleted hwake hres => ?_⟩
  · rw [hdepth]
    exact hsound.le_rxDepth
  · rw [hmsg]
    refine if_neg fun hin => ?_
    rcases hout with hrd | hle
    · rw [hin.1] at hrd
      cases hrd
    · exact absurd hin.2 (Nat.not_lt.mpr hle)
  · obtain ⟨h, hdrained, hmsgErr, hwrite, hread⟩ := hinv.of_result hres
    have hstop : t.atStop = true := by
      cases hhold : t.hw.conf.holdMaster
      · exact hwake hhold hmsgErr h.cmdErr hwrite hread
      · exact ((h.seen hcompleted).resolve_left fun herr => herr hmsgErr).2 hhold
    obtain ⟨ha, hreceived, -⟩ := h.settled hp View.withoutRestart (h.live.stopped hstop)
    have htaken : t.hw.taken.length = readLen msgs :=
      (hdrained hstop).resolve_left (by simp [hread])
    -- The bytes that came in are as many as those that were taken, and begin with them.
    have hempty : t.hw.rxFifo = [] := by
      have hlen := congrArg List.length ha.bytes
      rw [List.length_append] at hlen
      exact List.length_eq_zero_iff.mp (by omega)
    have hsame : t.hw.received = t.hw.taken := by
      rw [ha.bytes, hempty, List.append_nil]
    refine ⟨hreceived, fun i hi hrd off hoff => ?_⟩
    have hlt : readLenBefore msgs i + off < t.hw.taken.length := by
      have hmono := readLenBefore_mono msgs hi
      rw [readLenBefore_succ hrd] at hmono
      rw [htaken, readLen]
      omega
    rw [hsame, hmsg, List.getElem?_eq_getElem hlt]
    simp only [filled]
    rw [if_pos ⟨hrd, hoff⟩, List.getD_eq_getElem _ _ hlt]

/-- The transfer that reads a register gets its three bytes. -/
theorem received_readRegister : ∃ t,
    Runs.exec masterStep (i2cDwXferInit narrowConf true readRegister) readRegisterRun = some t ∧
      t.i2cDwXferResult = 2 ∧ t.hw.received = [11, 12, 13] ∧
      ∀ off, off < 3 → t.hw.received[off]? = some ((t.dev.msg 1).buf off) := by
  have hobs : (Runs.exec masterStep (i2cDwXferInit narrowConf true readRegister)
      readRegisterRun).map (fun t => (t.completed, decide (WakeOk t), t.i2cDwXferResult,
        t.hw.received)) = some (true, true, 2, [11, 12, 13]) := by decide +kernel
  obtain ⟨t, hrun, hobs⟩ := Option.map_eq_some_iff.mp hobs
  simp only [Prod.mk.injEq, decide_eq_true_eq] at hobs
  obtain ⟨hcompleted, hwake, hres, hreceived⟩ := hobs
  refine ⟨t, hrun, hres, hreceived, fun off hoff => ?_⟩
  have hplace : readLenBefore readRegister 1 = 0 := by decide +kernel
  have hbytes :=
    (received_buffers (by decide +kernel) narrowConf true hrun).2.2 hcompleted hwake hres
  have hbyte := hbytes.2 1 (by decide) (by decide) off hoff
  rw [hplace, Nat.zero_add] at hbyte
  exact hbyte

/-- A controller that does not hold the bus. -/
def yieldingConf : HwConf := ⟨2, 2, 0, false⟩

/-- Three bytes are written and one is read. -/
def writeThenRead : List I2cMsg :=
  [⟨0x50, false, false, false, 3, fun _ => 7⟩, ⟨0x50, true, false, false, 1, fun _ => 0⟩]

/-- **Success without a byte.**  The TX FIFO runs empty after two of the three bytes, and the
controller stops.  The handler writes the rest, finds no message in progress, and the transfer
returns 2. -/
theorem received_nothing : Plain writeThenRead ∧ ∃ t,
    Runs.exec masterStep (i2cDwXferInit yieldingConf true writeThenRead)
        ([.irq []] ++ twoCommands ++ [.hw .emptyStop, .irq []]) = some t ∧
      t.completed = true ∧ t.i2cDwXferResult = 2 ∧ t.hw.received = [] ∧
      readLen writeThenRead = 1 := by
  have hobs : (Runs.exec masterStep (i2cDwXferInit yieldingConf true writeThenRead)
      ([.irq []] ++ twoCommands ++ [.hw .emptyStop, .irq []])).map
        (fun t => (t.completed, t.i2cDwXferResult, t.hw.received)) = some (true, 2, []) := by
    decide +kernel
  obtain ⟨t, hrun, hobs⟩ := Option.map_eq_some_iff.mp hobs
  simp only [Prod.mk.injEq] at hobs
  exact ⟨by decide +kernel, t, hrun, hobs.1, hobs.2.1, hobs.2.2, by decide +kernel⟩

end RealtekIpcam.I2c
