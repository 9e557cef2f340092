import RealtekIpcam.I2c.Hardware

/-!
# What the FIFOs keep

Every command that was written is done or pending, and every byte that came was taken or waits
in the RX FIFO, in order: `I2cHw.Alive`.  An abort flushes both FIFOs, and until it is cleared
nothing gets in: `I2cHw.Flushed`.  `I2cHw.Sound` adds what the driver is to see to, that there
are no more read commands outstanding than the RX FIFO has room for, and that nothing follows
a stop.

The controller keeps all of it by itself.  What the driver adds is one lemma for a write and
one for a read of `IC_DATA_CMD`.
-/

namespace RealtekIpcam.I2c.I2cHw

variable {hw : I2cHw} {n : Int}

/-- The commands that the controller has accepted and is not done with. -/
def pending (hw : I2cHw) : List Word := hw.busy.toList ++ hw.txFifo

/-- No abort: commands and bytes are accounted for, in order. -/
structure Alive (hw : I2cHw) : Prop where
  txAbrt : hw.txAbrt = false
  commands : ∃ done, hw.written = done ++ hw.pending ∧ done.countP isRead = hw.received.length ∧
    done.any isStop = hw.stopped
  bytes : hw.received = hw.taken ++ hw.rxFifo

/-- An abort has flushed the FIFOs. -/
structure Flushed (hw : I2cHw) : Prop where
  txFifo : hw.txFifo = []
  rxFifo : hw.rxFifo = []
  busy : hw.busy = none
  stopped : hw.stopped = false

/-- The controller with `n` read commands outstanding. -/
structure Sound (hw : I2cHw) (n : Int) : Prop where
  outstanding : n = hw.written.countP isRead - hw.taken.length
  le_rxDepth : n ≤ hw.conf.rxDepth
  rxOver : hw.rxOver = false
  stop_last : ∀ cmd ∈ hw.written.dropLast, isStop cmd = false
  quiet : hw.written = [] → hw.started = false ∧ hw.stopDet = false
  phase : hw.Alive ∨ hw.Flushed

/-- A controller that holds the bus when its TX FIFO is empty stops at the end only. -/
def StopsAtEnd (hw : I2cHw) : Prop :=
  hw.conf.holdMaster = true → hw.txAbrt = false → hw.stopDet = true → hw.stopped = true

/-! ## What the controller leaves alone -/

theorem step_frame (hw : I2cHw) (e : HwEvent) :
    (hw.step e).written = hw.written ∧ (hw.step e).taken = hw.taken ∧
      (hw.step e).conf = hw.conf ∧ (hw.step e).intrMask = hw.intrMask := by
  cases e with
  | fetch =>
    simp only [step]
    split <;> exact ⟨rfl, rfl, rfl, rfl⟩
  | finish byte =>
    simp only [step, receive]
    split
    · split <;> split <;> (try split) <;> exact ⟨rfl, rfl, rfl, rfl⟩
    · exact ⟨rfl, rfl, rfl, rfl⟩
  | emptyStop =>
    simp only [step]
    split <;> exact ⟨rfl, rfl, rfl, rfl⟩
  | abort source =>
    simp only [step]
    split <;> exact ⟨rfl, rfl, rfl, rfl⟩

@[simp] theorem step_written (hw : I2cHw) (e : HwEvent) : (hw.step e).written = hw.written :=
  (step_frame hw e).1

@[simp] theorem step_taken (hw : I2cHw) (e : HwEvent) : (hw.step e).taken = hw.taken :=
  (step_frame hw e).2.1

@[simp] theorem step_conf (hw : I2cHw) (e : HwEvent) : (hw.step e).conf = hw.conf :=
  (step_frame hw e).2.2.1

@[simp] theorem step_intrMask (hw : I2cHw) (e : HwEvent) : (hw.step e).intrMask = hw.intrMask :=
  (step_frame hw e).2.2.2

/-! ## The controller by itself -/

theorem written_ne_nil (hp : hw.Alive ∨ hw.Flushed) (h : hw.pending ≠ []) : hw.written ≠ [] := by
  rcases hp with hp | hp
  · obtain ⟨done, hw', -⟩ := hp.commands
    rw [hw']
    simp [h]
  · exact absurd (by simp [pending, hp.busy, hp.txFifo]) h

/-- **The RX FIFO has room** for the bytes of all pending read commands. -/
theorem Alive.room (ha : hw.Alive) (hs : hw.Sound n) :
    hw.rxFifo.length + hw.pending.countP isRead ≤ hw.conf.rxDepth := by
  obtain ⟨done, hcmds, hdone, -⟩ := ha.commands
  have hout := hs.outstanding
  have hle := hs.le_rxDepth
  have hbytes := congrArg List.length ha.bytes
  rw [List.length_append] at hbytes
  rw [hcmds, List.countP_append] at hout
  omega

theorem Alive.pending_eq_nil (ha : hw.Alive) (hs : hw.Sound n) (hstop : hw.stopped = true) :
    hw.pending = [] := by
  obtain ⟨done, hcmds, -, hany⟩ := ha.commands
  by_contra hne
  rw [hstop, List.any_eq_true] at hany
  obtain ⟨cmd, hmem, hcmd⟩ := hany
  have hlast := hs.stop_last cmd (by
    rw [hcmds, List.dropLast_append_of_ne_nil hne]
    exact List.mem_append_left _ hmem)
  rw [hlast] at hcmd
  cases hcmd

theorem Alive.finish (ha : hw.Alive) (hs : hw.Sound n) (byte : Byte) :
    (hw.step (.finish byte)).Alive ∧ (hw.step (.finish byte)).rxOver = false := by
  simp only [step]
  cases hbusy : hw.busy with
  | none => exact ⟨ha, hs.rxOver⟩
  | some cmd =>
    obtain ⟨done, hcmds, hdone, hany⟩ := ha.commands
    have hroom := ha.room hs
    simp only [pending, hbusy, Option.toList_some, List.singleton_append] at hcmds hroom
    have hbytes := ha.bytes
    by_cases hread : isRead cmd = true
    · have hlt : hw.rxFifo.length < hw.conf.rxDepth := by
        rw [List.countP_cons_of_pos hread] at hroom
        omega
      by_cases hstop : isStop cmd = true
      · simp only [receive, hread, hstop, if_true, hlt]
        exact ⟨⟨ha.txAbrt, ⟨done ++ [cmd], by simp [pending, hcmds], by simp [hread, hdone],
          by simp [hstop]⟩, by simp [hbytes]⟩, hs.rxOver⟩
      · simp only [receive, hread, hstop, if_true, hlt]
        exact ⟨⟨ha.txAbrt, ⟨done ++ [cmd], by simp [pending, hcmds], by simp [hread, hdone],
          by simp [hstop, ← hany]⟩, by simp [hbytes]⟩, hs.rxOver⟩
    · by_cases hstop : isStop cmd = true
      · simp only [hread, hstop, if_true]
        exact ⟨⟨ha.txAbrt, ⟨done ++ [cmd], by simp [pending, hcmds], by simp [hread, hdone],
          by simp [hstop]⟩, hbytes⟩, hs.rxOver⟩
      · simp only [hread, hstop]
        exact ⟨⟨ha.txAbrt, ⟨done ++ [cmd], by simp [pending, hcmds], by simp [hread, hdone],
          by simp [hstop, ← hany]⟩, hbytes⟩, hs.rxOver⟩

/-- A transfer stays alive, or is flushed by an abort. -/
theorem Alive.step (ha : hw.Alive) (hs : hw.Sound n) (e : HwEvent) :
    ((hw.step e).Alive ∨ ((hw.step e).Flushed ∧ (hw.step e).txAbrt = true)) ∧
      (hw.step e).rxOver = false := by
  cases e with
  | fetch =>
    refine ⟨Or.inl ?_, ?_⟩
    · obtain ⟨done, hcmds, hdone⟩ := ha.commands
      simp only [I2cHw.step]
      split
      next cmd txFifo hbusy htx =>
        refine ⟨ha.txAbrt, ⟨done, ?_, hdone⟩, ha.bytes⟩
        rw [hcmds]
        simp [pending, hbusy, htx]
      next => exact ha
    · simp only [I2cHw.step]
      split <;> exact hs.rxOver
  | finish byte => exact ⟨Or.inl (ha.finish hs byte).1, (ha.finish hs byte).2⟩
  | emptyStop =>
    simp only [I2cHw.step]
    split
    · exact ⟨Or.inl ⟨ha.txAbrt, ha.commands, ha.bytes⟩, hs.rxOver⟩
    · exact ⟨Or.inl ha, hs.rxOver⟩
  | abort source =>
    simp only [I2cHw.step]
    split
    next hbusy =>
      refine ⟨Or.inr ⟨⟨rfl, rfl, rfl, ?_⟩, rfl⟩, hs.rxOver⟩
      cases hstop : hw.stopped
      · rfl
      · have hnil := ha.pending_eq_nil hs hstop
        rw [pending, List.append_eq_nil_iff, Option.toList_eq_nil_iff] at hnil
        exact absurd hnil.1 hbusy
    next => exact ⟨Or.inl ha, hs.rxOver⟩

/-- After an abort the controller stays flushed. -/
theorem Flushed.step (hf : hw.Flushed) (e : HwEvent) :
    (hw.step e).Flushed ∧ (hw.step e).txAbrt = hw.txAbrt ∧ (hw.step e).rxOver = hw.rxOver := by
  cases e with
  | fetch =>
    have hstep : hw.step .fetch = hw := by simp only [I2cHw.step, hf.busy, hf.txFifo]
    rw [hstep]
    exact ⟨hf, rfl, rfl⟩
  | finish byte =>
    have hstep : hw.step (.finish byte) = hw := by simp only [I2cHw.step, hf.busy]
    rw [hstep]
    exact ⟨hf, rfl, rfl⟩
  | emptyStop =>
    simp only [I2cHw.step]
    split
    · exact ⟨⟨hf.txFifo, hf.rxFifo, hf.busy, hf.stopped⟩, rfl, rfl⟩
    · exact ⟨hf, rfl, rfl⟩
  | abort source =>
    have hstep : hw.step (.abort source) = hw := by simp [I2cHw.step, hf.busy]
    rw [hstep]
    exact ⟨hf, rfl, rfl⟩

theorem quiet_step (hp : hw.Alive ∨ hw.Flushed)
    (hq : hw.written = [] → hw.started = false ∧ hw.stopDet = false) (e : HwEvent)
    (hnil : hw.written = []) : (hw.step e).started = false ∧ (hw.step e).stopDet = false := by
  have hpending : hw.pending = [] := by
    by_contra hne
    exact written_ne_nil hp hne hnil
  rw [pending, List.append_eq_nil_iff, Option.toList_eq_nil_iff] at hpending
  obtain ⟨hbusy, htx⟩ := hpending
  cases e with
  | fetch =>
    simp only [I2cHw.step, hbusy, htx]
    exact hq hnil
  | finish byte =>
    simp only [I2cHw.step, hbusy]
    exact hq hnil
  | emptyStop =>
    simp only [I2cHw.step, (hq hnil).1]
    simpa using hq hnil
  | abort source =>
    simp only [I2cHw.step, hbusy]
    exact hq hnil

theorem Sound.step (hs : hw.Sound n) (e : HwEvent) : (hw.step e).Sound n := by
  have hq := quiet_step hs.phase hs.quiet e
  refine ⟨by simpa using hs.outstanding, by simpa using hs.le_rxDepth, ?_,
    by simpa using hs.stop_last, by simpa using hq, ?_⟩
  · rcases hs.phase with ha | hf
    · exact (ha.step hs e).2
    · rw [(hf.step e).2.2]
      exact hs.rxOver
  · rcases hs.phase with ha | hf
    · exact (ha.step hs e).1.imp_right And.left
    · exact Or.inr (hf.step e).1

theorem Sound.flushed (hs : hw.Sound n) (habrt : hw.txAbrt = true) : hw.Flushed := by
  rcases hs.phase with ha | hf
  · rw [ha.txAbrt] at habrt
    cases habrt
  · exact hf

theorem Sound.step_alive (hs : hw.Sound n) (h : hw.Alive ∨ hw.txAbrt = true) (e : HwEvent) :
    (hw.step e).Alive ∨ (hw.step e).txAbrt = true := by
  rcases h with ha | habrt
  · exact (ha.step hs e).1.imp_right And.right
  · exact Or.inr (((hs.flushed habrt).step e).2.1.trans habrt)

theorem step_levels (hw : I2cHw) (e : HwEvent) :
    (hw.step e).txFifo.length ≤ hw.txFifo.length ∧
      ((hw.step e).txAbrt = false →
        hw.txAbrt = false ∧ hw.rxFifo.length ≤ (hw.step e).rxFifo.length) := by
  cases e with
  | fetch =>
    simp only [I2cHw.step]
    split
    next cmd txFifo hbusy htx =>
      exact ⟨by simp [htx], fun h => ⟨h, Nat.le_refl _⟩⟩
    next => exact ⟨Nat.le_refl _, fun h => ⟨h, Nat.le_refl _⟩⟩
  | finish byte =>
    simp only [I2cHw.step, receive]
    split
    · split <;> split <;> (try split) <;> simp
    · exact ⟨Nat.le_refl _, fun h => ⟨h, Nat.le_refl _⟩⟩
  | emptyStop =>
    simp only [I2cHw.step]
    split <;> exact ⟨Nat.le_refl _, fun h => ⟨h, Nat.le_refl _⟩⟩
  | abort source =>
    simp only [I2cHw.step]
    split
    · exact ⟨Nat.zero_le _, nofun⟩
    · exact ⟨Nat.le_refl _, fun h => ⟨h, Nat.le_refl _⟩⟩

theorem Sound.step_stopped (hs : hw.Sound n) (hstop : hw.stopped = true) (e : HwEvent) :
    (hw.step e).stopped = true := by
  have ha : hw.Alive := hs.phase.resolve_right fun hf => by simp [hf.stopped] at hstop
  have hnil := ha.pending_eq_nil hs hstop
  rw [pending, List.append_eq_nil_iff, Option.toList_eq_nil_iff] at hnil
  cases e with
  | fetch =>
    simp only [I2cHw.step, hnil.1, hnil.2]
    exact hstop
  | finish byte =>
    simp only [I2cHw.step, hnil.1]
    exact hstop
  | emptyStop =>
    simp only [I2cHw.step]
    split <;> exact hstop
  | abort source =>
    simp only [I2cHw.step, hnil.1, ne_eq, not_true_eq_false, if_false]
    exact hstop

theorem StopsAtEnd.step (h : hw.StopsAtEnd) (e : HwEvent) : (hw.step e).StopsAtEnd := by
  cases e with
  | fetch =>
    simp only [I2cHw.step]
    split <;> exact h
  | finish byte =>
    simp only [I2cHw.step, receive]
    split
    · split <;> split <;> (try split) <;> first | exact h | exact fun _ _ _ => rfl
    · exact h
  | emptyStop =>
    simp only [I2cHw.step]
    split
    next hempty => exact fun hhold => absurd hhold hempty.2.2.2
    next => exact h
  | abort source =>
    simp only [I2cHw.step]
    split
    · exact fun _ habrt => (by cases habrt)
    · exact h

/-! ## The driver's accesses -/

/-- **A write of a command** for which both FIFOs have room, and before which there was no stop. -/
theorem Sound.writeDataCmd (hs : hw.Sound n) (ho : hw.Alive ∨ hw.txAbrt = true) {cmd : Word}
    (hroom : hw.txAbrt = false → hw.txFifo.length < hw.conf.txDepth)
    (hread : isRead cmd = true → n < hw.conf.rxDepth)
    (hstop : ∀ c ∈ hw.written, isStop c = false) :
    (hw.writeDataCmd cmd).Sound (n + if isRead cmd then 1 else 0) ∧
      ((hw.writeDataCmd cmd).Alive ∨ (hw.writeDataCmd cmd).txAbrt = true) := by
  have hout : n + (if isRead cmd then 1 else 0) =
      (hw.written ++ [cmd]).countP isRead - hw.taken.length := by
    rw [hs.outstanding, List.countP_append, List.countP_singleton]
    split <;> omega
  have hle : n + (if isRead cmd then 1 else 0) ≤ hw.conf.rxDepth := by
    split
    next h => have := hread h; omega
    next => have := hs.le_rxDepth; omega
  have hlast : ∀ c ∈ (hw.written ++ [cmd]).dropLast, isStop c = false := by
    rw [List.dropLast_concat]
    exact hstop
  have hquiet : hw.written ++ [cmd] = [] → hw.started = false ∧ hw.stopDet = false := by simp
  by_cases habrt : hw.txAbrt = true
  · have hwrite : hw.writeDataCmd cmd = { hw with written := hw.written ++ [cmd] } := by
      simp [I2cHw.writeDataCmd, habrt]
    rw [hwrite]
    have hf := hs.flushed habrt
    exact ⟨⟨hout, hle, hs.rxOver, hlast, hquiet,
      Or.inr ⟨hf.txFifo, hf.rxFifo, hf.busy, hf.stopped⟩⟩, Or.inr habrt⟩
  · rw [Bool.not_eq_true] at habrt
    have hlt := hroom habrt
    have hwrite : hw.writeDataCmd cmd =
        { hw with written := hw.written ++ [cmd], txFifo := hw.txFifo ++ [cmd] } := by
      simp [I2cHw.writeDataCmd, habrt, hlt]
    have ha : hw.Alive := ho.resolve_right (by simp [habrt])
    have ha' : (hw.writeDataCmd cmd).Alive := by
      rw [hwrite]
      obtain ⟨done, hcmds, hdone⟩ := ha.commands
      exact ⟨habrt, ⟨done, by simp [pending, hcmds], hdone⟩, ha.bytes⟩
    refine ⟨?_, Or.inl ha'⟩
    rw [hwrite] at ha' ⊢
    exact ⟨hout, hle, hs.rxOver, hlast, hquiet, Or.inl ha'⟩

theorem Sound.readDataCmd (hs : hw.Sound n) (ho : hw.Alive ∨ hw.txAbrt = true)
    (hbyte : hw.txAbrt = false → hw.rxFifo ≠ []) :
    hw.readDataCmd.2.Sound (n - 1) ∧ (hw.readDataCmd.2.Alive ∨ hw.readDataCmd.2.txAbrt = true) := by
  have hout : ∀ byte, n - 1 =
      hw.written.countP isRead - ((hw.taken ++ [byte]).length : Int) := by
    intro byte
    rw [hs.outstanding, List.length_append, List.length_singleton]
    omega
  have hle : n - 1 ≤ hw.conf.rxDepth := by
    have := hs.le_rxDepth
    omega
  rcases ho with ha | habrt
  · obtain ⟨byte, rxFifo, hrx⟩ := List.exists_cons_of_ne_nil (hbyte ha.txAbrt)
    have hread : hw.readDataCmd =
        (byte, { hw with rxFifo := rxFifo, taken := hw.taken ++ [byte] }) := by
      simp only [I2cHw.readDataCmd, hrx]
    have ha' : hw.readDataCmd.2.Alive := by
      rw [hread]
      exact ⟨ha.txAbrt, ha.commands, by simp [ha.bytes, hrx]⟩
    refine ⟨?_, Or.inl ha'⟩
    rw [hread] at ha' ⊢
    exact ⟨hout byte, hle, hs.rxOver, hs.stop_last, hs.quiet, Or.inl ha'⟩
  · have hf : hw.Flushed := by
      rcases hs.phase with ha | hf
      · rw [ha.txAbrt] at habrt
        cases habrt
      · exact hf
    have hread : hw.readDataCmd = (0, { hw with taken := hw.taken ++ [0] }) := by
      simp only [I2cHw.readDataCmd, hf.rxFifo]
    rw [hread]
    exact ⟨⟨hout 0, hle, hs.rxOver, hs.stop_last, hs.quiet,
      Or.inr ⟨hf.txFifo, hf.rxFifo, hf.busy, hf.stopped⟩⟩, Or.inr habrt⟩

theorem Alive.writeIntrMask (h : hw.Alive) (mask : Intr) : ({ hw with intrMask := mask }).Alive :=
  ⟨h.txAbrt, h.commands, h.bytes⟩

theorem Sound.writeIntrMask (h : hw.Sound n) (mask : Intr) :
    ({ hw with intrMask := mask }).Sound n :=
  ⟨h.outstanding, h.le_rxDepth, h.rxOver, h.stop_last, h.quiet,
    h.phase.imp (·.writeIntrMask mask) fun hf => ⟨hf.txFifo, hf.rxFifo, hf.busy, hf.stopped⟩⟩

@[simp] theorem writeDataCmd_written (hw : I2cHw) (cmd : Word) :
    (hw.writeDataCmd cmd).written = hw.written ++ [cmd] := by
  simp only [I2cHw.writeDataCmd]
  split
  · rfl
  · split <;> rfl

theorem writeDataCmd_frame (hw : I2cHw) (cmd : Word) :
    (hw.writeDataCmd cmd).taken = hw.taken ∧ (hw.writeDataCmd cmd).conf = hw.conf ∧
      (hw.writeDataCmd cmd).stopped = hw.stopped ∧ (hw.writeDataCmd cmd).stopDet = hw.stopDet ∧
      (hw.writeDataCmd cmd).txAbrt = hw.txAbrt ∧
      (hw.writeDataCmd cmd).txFifo.length ≤ hw.txFifo.length + 1 := by
  simp only [I2cHw.writeDataCmd]
  split
  · exact ⟨rfl, rfl, rfl, rfl, rfl, Nat.le_succ _⟩
  · split
    · exact ⟨rfl, rfl, rfl, rfl, rfl, by simp⟩
    · exact ⟨rfl, rfl, rfl, rfl, rfl, Nat.le_succ _⟩

theorem readDataCmd_frame (hw : I2cHw) :
    hw.readDataCmd.2.taken = hw.taken ++ [hw.readDataCmd.1] ∧
      hw.readDataCmd.2.written = hw.written ∧ hw.readDataCmd.2.conf = hw.conf ∧
      hw.readDataCmd.2.stopped = hw.stopped ∧ hw.readDataCmd.2.stopDet = hw.stopDet ∧
      hw.readDataCmd.2.txAbrt = hw.txAbrt ∧
      hw.rxFifo.length ≤ hw.readDataCmd.2.rxFifo.length + 1 := by
  simp only [I2cHw.readDataCmd]
  split
  next byte rxFifo hrx => exact ⟨rfl, rfl, rfl, rfl, rfl, rfl, by simp [hrx]⟩
  next hrx => exact ⟨rfl, rfl, rfl, rfl, rfl, rfl, by simp [hrx]⟩

@[simp] theorem readDataCmd_intrMask (hw : I2cHw) : hw.readDataCmd.2.intrMask = hw.intrMask := by
  simp only [I2cHw.readDataCmd]
  split <;> rfl

end RealtekIpcam.I2c.I2cHw
