import RealtekIpcam.Serial.Port

/-!
# One run of the transmitter

`serial8250_tx_chars` sends a pending flow control character, or disarms a transmitter that has
nothing to do, or copies a burst of the ring into the chip.  `txLoop_sent` and `txLoop_contents` say
what the copying loop does to the ring: it sends the first `burst` bytes of it, or all of them when
there are fewer.  `ier_txChars` says when the transmitter is disarmed, and `Quiet` is the frame of
the operations that leave the interrupt enables and the line control alone.
-/

namespace RealtekIpcam.Serial

namespace Sys

variable {C : Chip} {s t u : Sys C}

/-! ## Operations that leave the interrupt enables alone -/

/-- The divisor latch is out of the way. -/
def Unlatched (s : Sys C) : Prop := ¬ Latched (C.lcr s.chip)

/-- The interrupt enables are the same, in the port and in the chip, and the divisor latch stays out
of the way. -/
structure Quiet (s t : Sys C) : Prop where
  port_ier : t.port.ier = s.port.ier
  chip_ier : C.ier t.chip = C.ier s.chip
  unlatched : s.Unlatched → t.Unlatched

theorem Quiet.refl (s : Sys C) : Quiet s s := ⟨rfl, rfl, id⟩

theorem Quiet.trans (h : Quiet s t) (h' : Quiet t u) : Quiet s u :=
  ⟨h'.port_ier.trans h.port_ier, h'.chip_ier.trans h.chip_ier,
    fun hs => h'.unlatched (h.unlatched hs)⟩

theorem quiet_setPort {p : Port} (h : p.ier = s.port.ier) : Quiet s (s.setPort p) := ⟨h, rfl, id⟩

theorem quiet_saveLsr (s : Sys C) (lsr : BitVec 8) : Quiet s (s.saveLsr lsr) := quiet_setPort rfl

theorem quiet_saveMsr (s : Sys C) (msr : BitVec 8) : Quiet s (s.saveMsr msr) := quiet_setPort rfl

theorem quiet_ite {c : Prop} [Decidable c] (h : Quiet s t) (h' : Quiet s u) :
    Quiet s (if c then t else u) := by
  split
  · exact h
  · exact h'

theorem quiet_serialIn (s : Sys C) (r : Reg) : Quiet s (s.serialIn r).2 := by
  refine ⟨rfl, C.ier_read _ _, fun hs => ?_⟩
  rw [Unlatched, serialIn, C.lcr_read]
  exact hs

theorem quiet_serialOut (s : Sys C) {r : Reg} (v : BitVec 8) (hier : r ≠ .ier) (hlcr : r ≠ .lcr) :
    Quiet s (s.serialOut r v) := by
  refine ⟨rfl, ?_, fun hs => ?_⟩
  · rw [serialOut, C.ier_write, if_neg fun h => hier h.1]
  · rw [Unlatched, serialOut, C.lcr_write, if_neg hlcr]
    exact hs

theorem quiet_transmit (s : Sys C) (x : Sent) : Quiet s (s.transmit x) :=
  have h := s.quiet_serialOut (r := .data) x.byte nofun nofun
  ⟨h.port_ier, h.chip_ier, h.unlatched⟩

theorem quiet_xcharOut (s : Sys C) : Quiet s s.xcharOut :=
  (s.quiet_transmit _).trans (quiet_setPort rfl)

theorem quiet_sendFront (s : Sys C) : Quiet s s.sendFront :=
  ((s.quiet_transmit _).trans (quiet_ite (quiet_serialIn _ _) (Quiet.refl _))).trans
    (quiet_setPort rfl)

theorem quiet_txLoop (fuel : Nat) (count : BitVec 32) (s : Sys C) :
    Quiet s (txLoop fuel count s) := by
  induction fuel generalizing count s with
  | zero => exact Quiet.refl s
  | succ fuel ih =>
    rw [txLoop]
    refine (quiet_sendFront s).trans ?_
    split
    · exact Quiet.refl _
    · split
      · exact ih _ _
      · exact Quiet.refl _

/-! ## The copying loop -/

/-- The bytes that `serial8250_tx_chars` copies at most, for the signed counter that starts at
`tx_loadsz`. -/
def burst (count : BitVec 32) : Nat := (count - 1#32).toInt.toNat + 1

theorem burst_le (count : BitVec 32) : burst count ≤ max 1 count.toNat := by
  have hsub := BitVec.toNat_sub count 1#32
  have hlt := count.isLt
  rw [burst, BitVec.toInt_eq_toNat_cond]
  have hone : (1#32).toNat = 1 := rfl
  rw [hone] at hsub
  split <;> omega

theorem burst_of_pos {count : BitVec 32} (h : 0 < (count - 1#32).toInt) :
    burst count = burst (count - 1#32) + 1 := by
  have hdec : (count - 1#32 - 1#32).toInt = (count - 1#32).toInt - 1 := by
    have hlt := BitVec.toInt_lt (x := count - 1#32)
    rw [BitVec.toInt_sub, show (1#32).toInt = 1 from rfl]
    apply Int.bmod_eq_of_le <;> omega
  rw [burst, burst, hdec]
  omega

theorem burst_of_not_pos {count : BitVec 32} (h : ¬ 0 < (count - 1#32).toInt) :
    burst count = 1 := by
  rw [burst]
  omega

@[simp] theorem sendFront_sent (s : Sys C) :
    s.sendFront.sent = s.sent ++ [.ring s.port.xmit.front (decide s.port.txStopped)] := by
  rw [sendFront]
  dsimp only
  split <;> rfl

theorem sendFront_port (s : Sys C) : s.sendFront.port =
    { s.port with
      xmit := s.port.xmit.get
      icount := { s.port.icount with tx := s.port.icount.tx + 1 } } := by
  rw [sendFront]
  dsimp only
  split <;> rfl

@[simp] theorem sendFront_txStopped (s : Sys C) :
    s.sendFront.port.txStopped = s.port.txStopped := by
  rw [sendFront_port]
  rfl

@[simp] theorem sendFront_xmit (s : Sys C) : s.sendFront.port.xmit = s.port.xmit.get := by
  rw [sendFront_port]

/-- **The loop sends the first bytes of the ring and leaves the others.** -/
theorem txLoop_ring (fuel : Nat) (count : BitVec 32) (s : Sys C)
    (hfuel : s.port.xmit.pending = fuel) (hne : ¬ s.port.circEmpty) :
    (txLoop fuel count s).sent =
        s.sent ++ (s.port.xmit.contents.take (burst count)).map
          (fun ch => Sent.ring ch (decide s.port.txStopped)) ∧
      (txLoop fuel count s).port.xmit.contents = s.port.xmit.contents.drop (burst count) := by
  induction fuel generalizing count s with
  | zero =>
    have hnil : s.port.xmit.contents = [] :=
      List.length_eq_zero_iff.mp (s.port.xmit.length_contents.trans hfuel)
    exact absurd (CircBuf.contents_eq_nil_iff.mp hnil) hne
  | succ fuel ih =>
    have hcons := CircBuf.contents_get hne
    have hpend : s.sendFront.port.xmit.pending = fuel := by
      have hget := CircBuf.pending_get hne
      rw [sendFront_xmit]
      omega
    obtain ⟨n, hn⟩ : ∃ n, burst count = n + 1 := ⟨_, rfl⟩
    rw [txLoop, hn, hcons, List.take_succ_cons, List.drop_succ_cons]
    by_cases hempty : s.sendFront.port.circEmpty
    · have hnil : s.port.xmit.get.contents = [] := by
        rw [← sendFront_xmit]
        exact CircBuf.contents_eq_nil_iff.mpr hempty
      rw [if_pos hempty, hnil, sendFront_sent, sendFront_xmit, hnil]
      simp
    · rw [if_neg hempty]
      by_cases hpos : 0 < (count - 1#32).toInt
      · have hburst : burst (count - 1#32) = n := by
          have h := burst_of_pos hpos
          omega
        obtain ⟨hsent, hdrop⟩ := ih (count - 1#32) s.sendFront hpend hempty
        simp only [hburst, sendFront_xmit, sendFront_txStopped] at hsent hdrop
        rw [if_pos hpos, hsent, hdrop, sendFront_sent]
        simp
      · have hzero : n = 0 := by
          have h := burst_of_not_pos hpos
          omega
        rw [if_neg hpos, hzero, sendFront_sent, sendFront_xmit]
        simp

theorem txLoop_port (fuel : Nat) (count : BitVec 32) (s : Sys C) : ∃ xmit icount,
    (txLoop fuel count s).port = { s.port with xmit := xmit, icount := icount } := by
  induction fuel generalizing count s with
  | zero => exact ⟨s.port.xmit, s.port.icount, rfl⟩
  | succ fuel ih =>
    rw [txLoop]
    have hsend : ∃ xmit icount,
        s.sendFront.port = { s.port with xmit := xmit, icount := icount } :=
      ⟨_, _, sendFront_port s⟩
    split
    · exact hsend
    · split
      · obtain ⟨xmit, icount, h⟩ := ih (count - 1#32) s.sendFront
        refine ⟨xmit, icount, ?_⟩
        rw [h, sendFront_port]
      · exact hsend

end Sys

/-! ## Disarming -/

/-- `serial8250_tx_chars` disarms the transmitter: no flow control character is pending, and
transmission is stopped, or the ring is empty, or one burst empties it. -/
def Port.Disarms (p : Port) : Prop :=
  p.xChar = 0#8 ∧
    (p.txStopped ∨ p.circEmpty ∨
      p.xmit.pending ≤ Sys.burst p.txLoadsz ∧ ¬ Any p.capabilities capRpm)

instance (p : Port) : Decidable p.Disarms := instDecidableAnd

namespace Sys

variable {C : Chip} {s t u : Sys C}

theorem and_not_of_not_any {v mask : BitVec 8} (h : ¬ Any v mask) : v &&& ~~~mask = v := by
  have hzero : v &&& mask = 0#8 := Decidable.not_not.mp h
  ext i hi
  have hbit : (v &&& mask).getLsbD i = (0#8).getLsbD i := congrArg (BitVec.getLsbD · i) hzero
  simp only [BitVec.getLsbD_and, BitVec.getLsbD_zero] at hbit
  cases hv : v.getLsbD i <;> simp_all

theorem and_not_ne_of_any {v mask : BitVec 8} (h : Any v mask) : v &&& ~~~mask ≠ v := by
  intro heq
  refine h ?_
  rw [← heq, BitVec.and_assoc, BitVec.and_comm (~~~mask) mask]
  simp

theorem clearThri_port (s : Sys C) :
    s.clearThri.port = { s.port with ier := s.port.ier &&& ~~~ierThri } := by
  rw [clearThri]
  split
  · rfl
  · rename_i h
    rw [and_not_of_not_any h]

theorem circEmpty_txLoop_iff (hne : ¬ s.port.circEmpty) :
    (txLoop s.port.xmit.pending s.port.txLoadsz s).port.circEmpty ↔
      s.port.xmit.pending ≤ burst s.port.txLoadsz := by
  have hring := (txLoop_ring s.port.xmit.pending s.port.txLoadsz s rfl hne).2
  have hiff := CircBuf.contents_eq_nil_iff
    (c := (txLoop s.port.xmit.pending s.port.txLoadsz s).port.xmit)
  rw [Port.circEmpty, ← hiff, hring, List.drop_eq_nil_iff, CircBuf.length_contents]

theorem txChars_ier (s : Sys C) :
    s.txChars.port.ier =
      if s.port.Disarms then s.port.ier &&& ~~~ierThri else s.port.ier := by
  rw [txChars]
  by_cases hx : s.port.xChar ≠ 0#8
  · rw [if_pos hx, if_neg fun h => hx h.1]
    exact s.quiet_xcharOut.port_ier
  · have hxz := Decidable.not_not.mp hx
    rw [if_neg hx]
    by_cases hstop : s.port.txStopped
    · rw [if_pos hstop, if_pos ⟨hxz, Or.inl hstop⟩, stopTx, clearThri_port]
    · rw [if_neg hstop]
      by_cases hempty : s.port.circEmpty
      · rw [if_pos hempty, if_pos ⟨hxz, Or.inr (Or.inl hempty)⟩, stopTx, clearThri_port]
      · rw [if_neg hempty]
        have hquiet := quiet_txLoop s.port.xmit.pending s.port.txLoadsz s
        obtain ⟨xmit, icount, hport⟩ := txLoop_port s.port.xmit.pending s.port.txLoadsz s
        have hcaps : (txLoop s.port.xmit.pending s.port.txLoadsz s).port.capabilities =
            s.port.capabilities := by rw [hport]
        have hiff : s.port.Disarms ↔
            (txLoop s.port.xmit.pending s.port.txLoadsz s).port.circEmpty ∧
              ¬ Any (txLoop s.port.xmit.pending s.port.txLoadsz s).port.capabilities capRpm := by
          rw [circEmpty_txLoop_iff hempty, hcaps]
          constructor
          · rintro ⟨-, h | h | h⟩
            · exact absurd h hstop
            · exact absurd h hempty
            · exact h
          · exact fun h => ⟨hxz, Or.inr (Or.inr h)⟩
        by_cases hdis : s.port.Disarms
        · rw [if_pos hdis]
          simp only [if_pos (hiff.mp hdis)]
          rw [stopTx, clearThri_port]
          exact congrArg (· &&& ~~~ierThri) hquiet.port_ier
        · rw [if_neg hdis]
          simp only [if_neg fun h => hdis (hiff.mpr h)]
          exact hquiet.port_ier

end Sys

end RealtekIpcam.Serial
