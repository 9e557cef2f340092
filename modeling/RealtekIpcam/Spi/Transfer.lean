import RealtekIpcam.Lib.Runs
import RealtekIpcam.Spi.Model

/-!
# The words of a transfer

`tx_max` bounds the words to write by those that are left, by the room in the TX
FIFO, and by what the driver has written and not read back, which is where the
shift register counts.  The last bound is what keeps the RX FIFO from overflowing:
every word that is under way comes out of it, so no more than `fifo_len` words are
ever between the two ends, wherever the controller has got to.

`Inv` says where they are.  The pointers say how many words were written and read,
and the buffer holds those that were read.
-/

namespace RealtekIpcam.Spi

/-! ## The controller -/

namespace SpiHw

variable {hw : SpiHw}

/-- The words are all there, and in order. -/
structure Flow (hw : SpiHw) : Prop where
  count : hw.written.length =
    hw.taken.length + hw.rxFifo.length + hw.shift.toList.length + hw.txFifo.length
  received : hw.received = hw.taken ++ hw.rxFifo
  frame : ∀ word ∈ hw.received, inFrame hw.frame word = word
  txOver : hw.txOver = false
  rxOver : hw.rxOver = false
  rxUnder : hw.rxUnder = false
  gap : hw.written.length ≤ hw.taken.length + hw.depth

theorem inFrame_inFrame (frame : Nat) (word : Half) :
    inFrame frame (inFrame frame word) = inFrame frame word := by
  simp only [inFrame]
  split
  · refine BitVec.eq_of_getLsbD_eq fun i hi => ?_
    simp only [BitVec.getLsbD_setWidth]
    grind
  · rfl

/-- What the controller leaves alone: the ends of the pipe.  The TX FIFO only
drains, and the RX FIFO only fills. -/
structure Frame (hw hw' : SpiHw) : Prop where
  written : hw'.written = hw.written
  taken : hw'.taken = hw.taken
  depth : hw'.depth = hw.depth
  frame : hw'.frame = hw.frame
  txFifo : hw'.txFifo.length ≤ hw.txFifo.length
  rxFifo : hw.rxFifo.length ≤ hw'.rxFifo.length

theorem Frame.refl (hw : SpiHw) : Frame hw hw :=
  ⟨rfl, rfl, rfl, rfl, Nat.le_refl _, Nat.le_refl _⟩

theorem Frame.trans {a b c : SpiHw} (h : Frame a b) (h' : Frame b c) : Frame a c :=
  ⟨h'.written.trans h.written, h'.taken.trans h.taken, h'.depth.trans h.depth,
    h'.frame.trans h.frame, h'.txFifo.trans h.txFifo, h.rxFifo.trans h'.rxFifo⟩

/-- No event of the controller touches the ends of the pipe. -/
theorem step_frame (hw : SpiHw) (e : HwEvent) : Frame hw (hw.step e) := by
  cases e with
  | load =>
    simp only [step]
    split
    next word txFifo hshift htx => exact ⟨rfl, rfl, rfl, rfl, by simp [htx], Nat.le_refl _⟩
    next => exact Frame.refl hw
  | shiftOut word =>
    simp only [step]
    split
    · split
      · exact ⟨rfl, rfl, rfl, rfl, Nat.le_refl _, by simp⟩
      · exact ⟨rfl, rfl, rfl, rfl, Nat.le_refl _, Nat.le_refl _⟩
    · exact Frame.refl hw

/-- **The controller loses no word.**  There is room for the one that comes in, since
it was counted while it was in the shift register. -/
theorem Flow.step (h : hw.Flow) (e : HwEvent) : (hw.step e).Flow := by
  have hcount := h.count
  have hgap := h.gap
  cases e with
  | load =>
    simp only [SpiHw.step]
    split
    next word txFifo hshift htx =>
      refine ⟨?_, h.received, h.frame, h.txOver, h.rxOver, h.rxUnder, h.gap⟩
      rw [hshift, htx] at hcount
      simp only [Option.toList_none, Option.toList_some, List.length_nil,
        List.length_cons] at hcount ⊢
      omega
    next => exact h
  | shiftOut word =>
    simp only [SpiHw.step]
    split
    next out hshift =>
      rw [hshift] at hcount
      simp only [Option.toList_some, List.length_cons, List.length_nil] at hcount
      have hroom : hw.rxFifo.length < hw.depth := by omega
      rw [if_pos hroom]
      refine ⟨?_, ?_, ?_, h.txOver, h.rxOver, h.rxUnder, h.gap⟩
      · simp only [Option.toList_none, List.length_nil, List.length_append, List.length_cons]
        omega
      · simp [h.received]
      · intro w hw'
        rcases List.mem_append.mp hw' with hw' | hw'
        · exact h.frame w hw'
        · rw [List.mem_singleton.mp hw']
          exact inFrame_inFrame hw.frame word
    next => exact h

theorem Flow.writeDr (h : hw.Flow) (word : Half) (htx : hw.txFifo.length < hw.depth)
    (hgap : hw.written.length < hw.taken.length + hw.depth) :
    (hw.writeDr word).Flow ∧ (hw.writeDr word).written = hw.written ++ [word] ∧
      (hw.writeDr word).taken = hw.taken ∧ (hw.writeDr word).depth = hw.depth ∧
      (hw.writeDr word).frame = hw.frame ∧
      (hw.writeDr word).txFifo.length = hw.txFifo.length + 1 := by
  have hcount := h.count
  have hwrite : hw.writeDr word =
      { hw with written := hw.written ++ [word], txFifo := hw.txFifo ++ [word] } := by
    simp [SpiHw.writeDr, htx]
  rw [hwrite]
  refine ⟨⟨?_, h.received, h.frame, h.txOver, h.rxOver, h.rxUnder, ?_⟩, rfl, rfl, rfl, rfl, ?_⟩
  · simp only [List.length_append, List.length_cons, List.length_nil]
    omega
  · simp only [List.length_append, List.length_cons, List.length_nil]
    omega
  · simp

theorem Flow.readDr (h : hw.Flow) (hrx : hw.rxFifo ≠ []) :
    hw.readDr.2.Flow ∧ hw.readDr.2.taken = hw.taken ++ [hw.readDr.1] ∧
      hw.readDr.2.written = hw.written ∧ hw.readDr.2.depth = hw.depth ∧
      hw.readDr.2.frame = hw.frame ∧ hw.readDr.2.received = hw.received ∧
      hw.rxFifo.length = hw.readDr.2.rxFifo.length + 1 := by
  have hcount := h.count
  have hgap := h.gap
  obtain ⟨word, rxFifo, hcons⟩ := List.exists_cons_of_ne_nil hrx
  have hread : hw.readDr =
      (word, { hw with rxFifo := rxFifo, taken := hw.taken ++ [word] }) := by
    simp only [SpiHw.readDr, hcons]
  rw [hcons] at hcount
  rw [List.length_cons] at hcount
  rw [hread]
  refine ⟨⟨?_, ?_, h.frame, h.txOver, h.rxOver, h.rxUnder, ?_⟩, rfl, rfl, rfl, rfl, rfl, ?_⟩
  · simp only [List.length_append, List.length_cons, List.length_nil]
    omega
  · simp [h.received, hcons]
  · simp only [List.length_append, List.length_cons, List.length_nil]
    omega
  · simp [hcons]

end SpiHw

/-! ## Words in memory -/

/-- The words of the transfer: those of the buffer, or zeros without one. -/
def txWords (n L : Nat) (txBuf : Option (Nat → Byte)) : List Half :=
  (List.range L).map fun i =>
    match txBuf with
    | some buf => loadWord n buf (i * n)
    | none => 0

/-- Memory with words at its beginning. -/
def stored (n : Nat) (mem : Nat → Byte) (words : List Half) : Nat → Byte := fun off =>
  match words[off / n]? with
  | some word => if off % n = 0 then word.setWidth 8 else (word >>> 8).setWidth 8
  | none => mem off

theorem stored_beyond {n : Nat} (hn : n = 1 ∨ n = 2) (mem : Nat → Byte) {words : List Half}
    {off : Nat} (h : words.length * n ≤ off) : stored n mem words off = mem off := by
  have hle : words.length ≤ off / n := by
    rcases hn with rfl | rfl <;> omega
  simp only [stored, List.getElem?_eq_none hle]

theorem storeWord_stored {n : Nat} (hn : n = 1 ∨ n = 2) (mem : Nat → Byte) (words : List Half)
    (word : Half) : storeWord n (stored n mem words) (words.length * n) word =
      stored n mem (words ++ [word]) := by
  have hlast : ∀ i, (words ++ [word])[i]? = if i = words.length then some word else words[i]? := by
    intro i
    rcases Nat.lt_trichotomy i words.length with hlt | rfl | hlt
    · rw [List.getElem?_append_left hlt, if_neg (by omega)]
    · simp
    · rw [if_neg (by omega), List.getElem?_eq_none (by simp; omega),
        List.getElem?_eq_none (by omega)]
  funext off
  rcases hn with rfl | rfl
  · simp only [storeWord, if_true, stored, hlast, Nat.div_one, Nat.mod_one, Nat.mul_one]
    by_cases hoff : off = words.length
    · rw [hoff, Function.update_self, if_pos rfl]
    · rw [Function.update_of_ne hoff, if_neg hoff]
      simp only [stored, Nat.div_one, Nat.mod_one, if_true]
  · have htwo : ¬ (2 : Nat) = 1 := by decide
    simp only [storeWord, if_neg htwo, stored, hlast]
    by_cases hhigh : off = words.length * 2 + 1
    · rw [hhigh, Function.update_self, if_pos (by omega)]
      exact (if_neg (by omega)).symm
    · rw [Function.update_of_ne hhigh]
      by_cases hlow : off = words.length * 2
      · rw [hlow, Function.update_self, if_pos (by omega)]
        exact (if_pos (by omega)).symm
      · rw [Function.update_of_ne hlow, if_neg (by omega)]
        rfl

theorem loadWord_stored {n : Nat} (hn : n = 1 ∨ n = 2) (mem : Nat → Byte) {words : List Half}
    {i : Nat} {word : Half} (hi : words[i]? = some word) (hframe : inFrame n word = word) :
    loadWord n (stored n mem words) (i * n) = word := by
  rcases hn with rfl | rfl
  · simp only [inFrame, if_true] at hframe
    simp only [loadWord, if_true, stored, Nat.div_one, Nat.mul_one, hi, Nat.mod_one]
    exact hframe
  · have hlow : (i * 2) / 2 = i := by omega
    have hhigh : (i * 2 + 1) / 2 = i := by omega
    have hone : ¬ (i * 2 + 1) % 2 = 0 := by omega
    have hzero : (i * 2) % 2 = 0 := by omega
    have htwo : ¬ (2 : Nat) = 1 := by decide
    simp only [loadWord, if_neg htwo, stored, hlow, hhigh, hi, if_neg hone, if_pos hzero]
    refine BitVec.eq_of_getLsbD_eq fun k hk => ?_
    simp only [BitVec.getLsbD_append, BitVec.getLsbD_setWidth, BitVec.getLsbD_ushiftRight]
    grind

/-! ## The driver -/

namespace Transfer

/-- Where the transfer of `L` words of `n` bytes is. -/
structure Inv (n L D : Nat) (txBuf rxBuf : Option (Nat → Byte)) (s : Transfer) : Prop where
  flow : s.hw.Flow
  nBytes : s.dws.nBytes = n
  frame : s.hw.frame = n
  fifoLen : s.dws.fifoLen.toNat = D
  depth : s.hw.depth = D
  txEnd : s.dws.txEnd = L * n
  rxEnd : s.dws.rxEnd = L * n
  tx : s.dws.tx = s.hw.written.length * n
  rx : s.dws.rx = s.hw.taken.length * n
  le : s.hw.written.length ≤ L
  txMem : s.dws.txBuf = txBuf
  written : s.hw.written <+: txWords n L txBuf
  rxMem : s.dws.rxBuf = rxBuf.map fun mem => stored n mem s.hw.taken
  finalized : s.finalized = true → s.hw.taken.length = L
  status : s.status = 0

variable {n L D : Nat} {txBuf rxBuf : Option (Nat → Byte)} {s : Transfer}

theorem tick_frame (s : Transfer) : SpiHw.Frame s.hw s.tick.hw := by
  have h : ∀ (es : List HwEvent) (hw : SpiHw), SpiHw.Frame hw (es.foldl SpiHw.step hw) := by
    intro es
    induction es with
    | nil => exact SpiHw.Frame.refl
    | cons e es ih => exact fun hw => (hw.step_frame e).trans (ih _)
  exact h _ _

theorem Inv.of_hw (h : s.Inv n L D txBuf rxBuf) {s' : Transfer} (hflow : s'.hw.Flow)
    (hframe : SpiHw.Frame s.hw s'.hw) (hdws : s'.dws = s.dws) (hfin : s'.finalized = s.finalized)
    (hstatus : s'.status = s.status) : s'.Inv n L D txBuf rxBuf := by
  refine ⟨hflow, ?_, hframe.frame.trans h.frame, ?_, hframe.depth.trans h.depth, ?_, ?_, ?_, ?_, ?_,
    ?_, ?_, ?_, ?_, hstatus.trans h.status⟩
  all_goals simp only [hdws, hframe.written, hframe.taken, hfin]
  · exact h.nBytes
  · exact h.fifoLen
  · exact h.txEnd
  · exact h.rxEnd
  · exact h.tx
  · exact h.rx
  · exact h.le
  · exact h.txMem
  · exact h.written
  · exact h.rxMem
  · exact h.finalized

theorem Inv.tick (h : s.Inv n L D txBuf rxBuf) : s.tick.Inv n L D txBuf rxBuf := by
  have hflow : ∀ (es : List HwEvent) (hw : SpiHw), hw.Flow → (es.foldl SpiHw.step hw).Flow := by
    intro es
    induction es with
    | nil => exact fun hw h => h
    | cons e es ih => exact fun hw h => ih _ (h.step e)
  exact h.of_hw (hflow _ _ h.flow) (tick_frame s) rfl rfl rfl

theorem u32_words {n k : Nat} (hn : 0 < n) (hlt : k * n < 4294967296) :
    Words.u32 (((k * n : Nat) : Int).tdiv n) = k := by
  have hdiv : ((k * n : Nat) : Int).tdiv n = k := by
    rw [Nat.cast_mul]
    exact Int.mul_tdiv_cancel _ (by omega)
  have hle : k ≤ k * n := Nat.le_mul_of_pos_right k hn
  rw [hdiv, Words.u32_eq (by omega) (by omega), Int.toNat_natCast]

/-- **`tx_max`** is the least of what is left, the room in the TX FIFO, and the room
that the words under way leave in the RX FIFO. -/
theorem Inv.txMax_eq (h : s.Inv n L D txBuf rxBuf) (hn : 0 < n) (hlt : L * n < 4294967296) :
    s.txMax = (min (L - s.hw.written.length) (min (s.hw.depth - s.tick.hw.txFifo.length)
      (s.hw.depth - (s.hw.written.length - s.hw.taken.length))), s.tick) := by
  have hcount := h.tick.flow.count
  have hgap := h.flow.gap
  have htick := tick_frame s
  have hfifo : s.hw.depth < 4294967296 := by
    rw [h.depth, ← h.fifoLen]
    exact s.dws.fifoLen.toNat_lt
  have hmul : ∀ a b : Nat, b ≤ a → ((a * n : Nat) : Int) - (b * n : Nat) = ((a - b) * n : Nat) := by
    intro a b hab
    rw [Nat.sub_mul, Int.ofNat_sub (Nat.mul_le_mul_right n hab)]
  have hleft : Words.u32 (((s.dws.txEnd : Int) - s.dws.tx).tdiv s.dws.nBytes) =
      L - s.hw.written.length := by
    rw [h.txEnd, h.tx, h.nBytes, hmul _ _ h.le]
    exact u32_words hn (Nat.lt_of_le_of_lt (Nat.mul_le_mul_right n (Nat.sub_le _ _)) hlt)
  rw [htick.written, htick.taken] at hcount
  have htaken : s.hw.taken.length ≤ s.hw.written.length := by omega
  have hrxtx : Words.u32 (((((s.dws.rxEnd : Int) - s.dws.rx) -
      ((s.dws.txEnd : Int) - s.dws.tx))).tdiv s.dws.nBytes) =
        s.hw.written.length - s.hw.taken.length := by
    have hdiff : ((s.dws.rxEnd : Int) - s.dws.rx) - ((s.dws.txEnd : Int) - s.dws.tx) =
        ((s.hw.written.length - s.hw.taken.length) * n : Nat) := by
      rw [← hmul _ _ htaken, h.rxEnd, h.txEnd, h.rx, h.tx]
      ring
    rw [hdiff, h.nBytes]
    refine u32_words hn (Nat.lt_of_le_of_lt (Nat.mul_le_mul_right n ?_) hlt)
    exact (Nat.sub_le _ _).trans h.le
  have hroom : Words.u32 ((s.dws.fifoLen.toNat : Int) - s.tick.hw.txFifo.length) =
      s.hw.depth - s.tick.hw.txFifo.length := by
    rw [h.fifoLen, ← h.depth, Words.u32_eq (by omega) (by omega)]
    omega
  have hcredit : Words.u32 ((s.dws.fifoLen.toNat : Int) -
      (s.hw.written.length - s.hw.taken.length : Nat)) =
        s.hw.depth - (s.hw.written.length - s.hw.taken.length) := by
    rw [h.fifoLen, ← h.depth, Words.u32_eq (by omega) (by omega)]
    omega
  simp only [txMax, hleft, hrxtx, hroom, hcredit]

theorem Inv.rxMax_eq (h : s.Inv n L D txBuf rxBuf) (hn : 0 < n) (hlt : L * n < 4294967296) :
    s.rxMax = (s.tick.hw.rxFifo.length, s.tick) := by
  have hcount := h.tick.flow.count
  have htick := tick_frame s
  rw [htick.written, htick.taken] at hcount
  have hle := h.le
  have hleft : Words.u32 (((s.dws.rxEnd : Int) - s.dws.rx).tdiv s.dws.nBytes) =
      L - s.hw.taken.length := by
    have hmul : ((L * n : Nat) : Int) - (s.hw.taken.length * n : Nat) =
        ((L - s.hw.taken.length) * n : Nat) := by
      rw [Nat.sub_mul, Int.ofNat_sub (Nat.mul_le_mul_right n (by omega))]
    rw [h.rxEnd, h.rx, h.nBytes, hmul]
    exact u32_words hn (Nat.lt_of_le_of_lt (Nat.mul_le_mul_right n (Nat.sub_le _ _)) hlt)
  simp only [rxMax, hleft]
  rw [Nat.min_eq_right (by omega)]

theorem Inv.txWord_eq (h : s.Inv n L D txBuf rxBuf) (hlt : s.hw.written.length < L) :
    (txWords n L txBuf)[s.hw.written.length]? = some s.txWord := by
  have hlen : s.hw.written.length < (txWords n L txBuf).length := by simpa [txWords] using hlt
  rw [List.getElem?_eq_getElem hlen, Transfer.txWord, h.txMem, h.tx, h.nBytes]
  simp only [txWords, List.getElem_map, List.getElem_range]
  cases txBuf <;> rfl

/-- One word is written. -/
theorem Inv.writeRound (h : s.Inv n L D txBuf rxBuf) (hlt : s.hw.written.length < L)
    (htx : s.hw.txFifo.length < s.hw.depth)
    (hgap : s.hw.written.length < s.hw.taken.length + s.hw.depth) :
    s.writeRound.Inv n L D txBuf rxBuf ∧
      s.writeRound.hw.written.length = s.hw.written.length + 1 ∧
      s.writeRound.hw.taken = s.hw.taken ∧ s.writeRound.hw.depth = s.hw.depth ∧
      s.writeRound.hw.txFifo.length ≤ s.hw.txFifo.length + 1 := by
  have ht := h.tick
  have hframe := tick_frame s
  have hdrain := hframe.txFifo
  obtain ⟨hflow, hwritten, htaken, hdepth, hfr, hgrow⟩ := ht.flow.writeDr s.txWord
    (by rw [hframe.depth]; omega) (by rw [hframe.written, hframe.taken, hframe.depth]; exact hgap)
  rw [hframe.written] at hwritten
  rw [hframe.taken] at htaken
  rw [hframe.depth] at hdepth
  have hlen : (s.tick.hw.writeDr s.txWord).written.length = s.hw.written.length + 1 := by
    rw [hwritten, List.length_append, List.length_singleton]
  refine ⟨⟨hflow, h.nBytes, hfr.trans ht.frame, h.fifoLen, hdepth.trans h.depth, h.txEnd, h.rxEnd,
    ?_, ?_, ?_, h.txMem, ?_, ?_, ?_, h.status⟩, hlen, htaken, hdepth, ?_⟩
  · show s.dws.tx + s.dws.nBytes = (s.tick.hw.writeDr s.txWord).written.length * n
    rw [hlen, h.tx, h.nBytes]
    ring
  · show s.dws.rx = (s.tick.hw.writeDr s.txWord).taken.length * n
    rw [htaken]
    exact h.rx
  · show (s.tick.hw.writeDr s.txWord).written.length ≤ L
    omega
  · show (s.tick.hw.writeDr s.txWord).written <+: txWords n L txBuf
    rw [hwritten]
    have hnext := h.txWord_eq hlt
    obtain ⟨rest, hrest⟩ := h.written
    rw [← hrest, List.getElem?_append_right (Nat.le_refl _), Nat.sub_self] at hnext
    cases rest with
    | nil => cases hnext
    | cons word rest =>
      rw [List.getElem?_cons_zero, Option.some_inj] at hnext
      refine ⟨rest, ?_⟩
      rw [← hrest, ← hnext, List.append_assoc, List.singleton_append]
  · show s.dws.rxBuf = rxBuf.map fun mem => stored n mem (s.tick.hw.writeDr s.txWord).taken
    rw [htaken]
    exact h.rxMem
  · intro hfin
    show (s.tick.hw.writeDr s.txWord).taken.length = L
    rw [htaken]
    exact h.finalized hfin
  · show (s.tick.hw.writeDr s.txWord).txFifo.length ≤ _
    omega

/-- One word is read. -/
theorem Inv.readRound (hn : n = 1 ∨ n = 2) (h : s.Inv n L D txBuf rxBuf) (hrx : s.hw.rxFifo ≠ []) :
    s.readRound.Inv n L D txBuf rxBuf ∧ s.readRound.hw.written = s.hw.written ∧
      s.readRound.hw.taken.length = s.hw.taken.length + 1 ∧
      s.hw.rxFifo.length ≤ s.readRound.hw.rxFifo.length + 1 := by
  have ht := h.tick
  have hframe := tick_frame s
  have hmore := hframe.rxFifo
  have hpos := List.length_pos_of_ne_nil hrx
  obtain ⟨hflow, htaken, hwritten, hdepth, hfr, -, hless⟩ :=
    ht.flow.readDr (List.ne_nil_of_length_pos (by omega))
  rw [hframe.written] at hwritten
  rw [hframe.taken] at htaken
  rw [hframe.depth] at hdepth
  have hlen : s.tick.hw.readDr.2.taken.length = s.hw.taken.length + 1 := by
    rw [htaken, List.length_append, List.length_singleton]
  have hcount := hflow.count
  rw [hwritten, hlen] at hcount
  have hle := h.le
  refine ⟨⟨hflow, h.nBytes, hfr.trans ht.frame, h.fifoLen, hdepth.trans h.depth, h.txEnd, h.rxEnd,
    ?_, ?_, ?_, h.txMem, ?_, ?_, ?_, h.status⟩, hwritten, hlen, ?_⟩
  · show s.dws.tx = s.tick.hw.readDr.2.written.length * n
    rw [hwritten]
    exact h.tx
  · show s.dws.rx + s.dws.nBytes = s.tick.hw.readDr.2.taken.length * n
    rw [hlen, h.rx, h.nBytes]
    ring
  · show s.tick.hw.readDr.2.written.length ≤ L
    rw [hwritten]
    exact hle
  · show s.tick.hw.readDr.2.written <+: txWords n L txBuf
    rw [hwritten]
    exact h.written
  · show (s.dws.rxBuf.map fun buf => storeWord s.dws.nBytes buf s.dws.rx s.tick.hw.readDr.1) =
      rxBuf.map fun mem => stored n mem s.tick.hw.readDr.2.taken
    rw [h.rxMem, h.nBytes, h.rx, htaken, Option.map_map]
    refine congrArg (Option.map · rxBuf) ?_
    funext mem
    exact storeWord_stored hn mem s.hw.taken _
  · intro hfin
    have := h.finalized hfin
    omega
  · show s.hw.rxFifo.length ≤ s.tick.hw.readDr.2.rxFifo.length + 1
    omega

theorem Inv.writeRounds (k : Nat) {s : Transfer} (h : s.Inv n L D txBuf rxBuf)
    (hleft : s.hw.written.length + k ≤ L) (htx : s.hw.txFifo.length + k ≤ s.hw.depth)
    (hgap : s.hw.written.length + k ≤ s.hw.taken.length + s.hw.depth) :
    (Transfer.writeRound^[k] s).Inv n L D txBuf rxBuf ∧
      (Transfer.writeRound^[k] s).hw.taken = s.hw.taken ∧
      (Transfer.writeRound^[k] s).hw.written.length = s.hw.written.length + k := by
  induction k generalizing s with
  | zero => exact ⟨h, rfl, rfl⟩
  | succ k ih =>
    obtain ⟨hinv, hwritten, htaken, hdepth, hgrow⟩ :=
      h.writeRound (by omega) (by omega) (by omega)
    rw [Function.iterate_succ_apply]
    obtain ⟨hrest, htaken', hwritten'⟩ := ih hinv (by omega) (by rw [hdepth]; omega)
      (by rw [htaken, hdepth]; omega)
    exact ⟨hrest, htaken'.trans htaken, by omega⟩

theorem Inv.readRounds (hn : n = 1 ∨ n = 2) (k : Nat) {s : Transfer} (h : s.Inv n L D txBuf rxBuf)
    (hrx : k ≤ s.hw.rxFifo.length) :
    (Transfer.readRound^[k] s).Inv n L D txBuf rxBuf ∧
      (Transfer.readRound^[k] s).hw.written = s.hw.written ∧
      (Transfer.readRound^[k] s).hw.taken.length = s.hw.taken.length + k := by
  induction k generalizing s with
  | zero => exact ⟨h, rfl, rfl⟩
  | succ k ih =>
    obtain ⟨hinv, hwritten, htaken, hless⟩ := h.readRound hn (List.ne_nil_of_length_pos (by omega))
    rw [Function.iterate_succ_apply]
    obtain ⟨hrest, hwritten', htaken'⟩ := ih hinv (by omega)
    exact ⟨hrest, hwritten'.trans hwritten, by omega⟩

/-- **`dw_writer`** writes `tx_max` words, keeps them in order and the RX FIFO safe. -/
theorem Inv.dwWriter_spec (h : s.Inv n L D txBuf rxBuf) (hn : 0 < n) (hlt : L * n < 4294967296) :
    s.dwWriter.Inv n L D txBuf rxBuf ∧ s.dwWriter.hw.taken = s.hw.taken ∧
      s.dwWriter.hw.written.length = s.hw.written.length + s.txMax.1 := by
  have hframe := tick_frame s
  have hgap := h.flow.gap
  have hcount := h.tick.flow.count
  rw [hframe.written, hframe.taken] at hcount
  have hle := h.le
  rw [Transfer.dwWriter, h.txMax_eq hn hlt]
  have hrounds := h.tick.writeRounds (min (L - s.hw.written.length)
    (min (s.hw.depth - s.tick.hw.txFifo.length)
      (s.hw.depth - (s.hw.written.length - s.hw.taken.length))))
  rw [hframe.written, hframe.taken, hframe.depth] at hrounds
  exact hrounds (by omega) (by omega) (by omega)

theorem Inv.dwWriter (h : s.Inv n L D txBuf rxBuf) (hn : n = 1 ∨ n = 2)
    (hlt : L * n < 4294967296) : s.dwWriter.Inv n L D txBuf rxBuf :=
  (h.dwWriter_spec (by omega) hlt).1

theorem Inv.dwReader_spec (h : s.Inv n L D txBuf rxBuf) (hn : n = 1 ∨ n = 2)
    (hlt : L * n < 4294967296) :
    s.dwReader.Inv n L D txBuf rxBuf ∧ s.dwReader.hw.written = s.hw.written ∧
      s.dwReader.hw.taken.length = s.hw.taken.length + s.rxMax.1 := by
  have hframe := tick_frame s
  rw [Transfer.dwReader, h.rxMax_eq (by omega) hlt]
  have hrounds := h.tick.readRounds hn _ (Nat.le_refl _)
  rwa [hframe.written, hframe.taken] at hrounds

theorem Inv.dwReader (h : s.Inv n L D txBuf rxBuf) (hn : n = 1 ∨ n = 2)
    (hlt : L * n < 4294967296) : s.dwReader.Inv n L D txBuf rxBuf :=
  (h.dwReader_spec hn hlt).1

theorem Inv.setTxei (h : s.Inv n L D txBuf rxBuf) (on : Bool) :
    (s.setTxei on).Inv n L D txBuf rxBuf := by
  have ht := h.tick.tick
  have hf := ht.flow
  exact ht.of_hw ⟨hf.count, hf.received, hf.frame, hf.txOver, hf.rxOver, hf.rxUnder, hf.gap⟩
    ⟨rfl, rfl, rfl, rfl, Nat.le_refl _, Nat.le_refl _⟩ rfl rfl rfl

theorem Inv.interruptTransfer (h : s.Inv n L D txBuf rxBuf) (hn : n = 1 ∨ n = 2)
    (hlt : L * n < 4294967296) : s.interruptTransfer.Inv n L D txBuf rxBuf := by
  have ht := h.tick
  have hnoerr : (s.tick.hw.isr.txoi || s.tick.hw.isr.rxoi || s.tick.hw.isr.rxui) = false := by
    simp [SpiHw.isr, SpiInt.and, ht.flow.txOver, ht.flow.rxOver, ht.flow.rxUnder]
  simp only [Transfer.interruptTransfer, hnoerr, Bool.false_eq_true, if_false]
  have hr := ht.dwReader hn hlt
  split
  next hend =>
    have hd := hr.setTxei false
    refine ⟨hd.flow, hd.nBytes, hd.frame, hd.fifoLen, hd.depth, hd.txEnd, hd.rxEnd, hd.tx,
      hd.rx, hd.le, hd.txMem, hd.written, hd.rxMem, fun _ => ?_, hd.status⟩
    have hrx := hd.rx
    have hlen : L * n = (s.tick.dwReader.setTxei false).hw.taken.length * n := by
      rw [← hrx, ← hr.rxEnd]
      exact hend
    exact (Nat.eq_of_mul_eq_mul_right (by omega) hlen).symm
  next =>
    split
    · exact ((hr.setTxei false).dwWriter hn hlt).setTxei true
    · exact hr

/-- A transfer begins. -/
theorem dwSpiTransferOne_inv (fifo : UInt32) {len : UInt32} (hL : len.toNat = L * n)
    (pollMode : Bool) :
    (dwSpiTransferOne fifo n len txBuf rxBuf pollMode).Inv n L fifo.toNat txBuf rxBuf := by
  refine ⟨⟨rfl, rfl, fun word hword => (by cases hword), rfl, rfl, rfl, Nat.zero_le _⟩, rfl,
    rfl, rfl, rfl, hL, hL, (Nat.zero_mul n).symm, (Nat.zero_mul n).symm, Nat.zero_le _, rfl,
    List.nil_prefix, ?_, fun hfin => (by cases hfin), rfl⟩
  show rxBuf = rxBuf.map fun mem => stored n mem []
  cases rxBuf <;> rfl

theorem Inv.taken_length (h : s.Inv n L D txBuf rxBuf) (hn : 0 < n)
    (hend : s.dws.rx = s.dws.rxEnd) :
    s.hw.taken.length = L := by
  rw [h.rx, h.rxEnd] at hend
  exact Nat.eq_of_mul_eq_mul_right hn hend

theorem Inv.complete (h : s.Inv n L D txBuf rxBuf) (htaken : s.hw.taken.length = L) :
    s.hw.written = txWords n L txBuf ∧ s.hw.received = s.hw.taken := by
  have hcount := h.flow.count
  have hle := h.le
  have hlen : (txWords n L txBuf).length = L := by simp [txWords]
  have hrx : s.hw.rxFifo = [] := List.eq_nil_of_length_eq_zero (by omega)
  refine ⟨h.written.eq_of_length (by omega), ?_⟩
  rw [h.flow.received, hrx, List.append_nil]

/-- **One step** of the driver or the controller keeps the flow of words. -/
theorem spiStep_inv (hn : n = 1 ∨ n = 2) (hlt : L * n < 4294967296) {t : Transfer} {e : SpiEvent}
    (h : s.Inv n L D txBuf rxBuf) (hstep : spiStep s e = some t) : t.Inv n L D txBuf rxBuf := by
  have hsched : ∀ sched, ({ s with sched := sched } : Transfer).Inv n L D txBuf rxBuf :=
    fun sched => h.of_hw h.flow (SpiHw.Frame.refl _) rfl rfl rfl
  cases e with
  | poll sched =>
    rw [spiStep, Option.some_inj] at hstep
    exact hstep ▸ ((hsched sched).dwWriter hn hlt).dwReader hn hlt
  | irq curMsg sched =>
    rw [spiStep, Option.some_inj] at hstep
    subst hstep
    have ht := (hsched sched).tick
    simp only [dwSpiIrq]
    split
    · exact ht
    · split
      · exact ht.setTxei false
      · exact ht.interruptTransfer hn hlt
  | hw e =>
    rw [spiStep, Option.some_inj] at hstep
    exact hstep ▸ h.of_hw (h.flow.step e) (s.hw.step_frame e) rfl rfl rfl

theorem run_inv (hn : n = 1 ∨ n = 2) (hlt : L * n < 4294967296) {t : Transfer}
    {es : List SpiEvent} (h : s.Inv n L D txBuf rxBuf) (hrun : Runs.exec spiStep s es = some t) :
    t.Inv n L D txBuf rxBuf :=
  Runs.exec_invariant (P := Inv n L D txBuf rxBuf) (C := fun _ _ => True)
    (fun _ _ _ hs _ hstep => spiStep_inv hn hlt hs hstep) h
    (Runs.Along.of_forall fun _ _ => trivial) hrun

/-- `poll_transfer` is a run of these steps. -/
theorem pollTransfer_run (k : Nat) {s t : Transfer} (hpoll : pollTransfer k s = some t) :
    ∃ es, Runs.exec spiStep s es = some t ∧ t.dws.rxEnd ≤ t.dws.rx := by
  induction k generalizing s with
  | zero => cases hpoll
  | succ k ih =>
    have hstep : spiStep s (.poll s.sched) = some s.pollRound := rfl
    rw [pollTransfer] at hpoll
    split at hpoll
    · obtain ⟨es, hrun, hend⟩ := ih hpoll
      exact ⟨.poll s.sched :: es, Runs.exec_cons.mpr ⟨_, hstep, hrun⟩, hend⟩
    next hend =>
      obtain rfl := Option.some_inj.mp hpoll
      exact ⟨[.poll s.sched], Runs.exec_singleton.mpr hstep, Nat.le_of_not_lt hend⟩

/-- **`poll_transfer` returns with the whole transfer done**, whatever the controller does in the
meantime, and no FIFO has overflowed or was read empty. -/
theorem pollTransfer_words (hn : n = 1 ∨ n = 2) (fifoLen len : UInt32) (hdvd : n ∣ len.toNat)
    (sched : List (List HwEvent)) {k : Nat} {t : Transfer} (hpoll : pollTransfer k
      { dwSpiTransferOne fifoLen n len txBuf rxBuf true with sched := sched } = some t) :
    (t.hw.txOver = false ∧ t.hw.rxOver = false ∧ t.hw.rxUnder = false ∧ t.status = 0) ∧
      t.hw.written = txWords n (len.toNat / n) txBuf ∧ t.hw.received.length = len.toNat / n ∧
      t.dws.rxBuf = rxBuf.map fun mem => stored n mem t.hw.received := by
  have hL : len.toNat = len.toNat / n * n := (Nat.div_mul_cancel hdvd).symm
  have hlt : len.toNat / n * n < 4294967296 := hL ▸ len.toNat_lt
  have hstart : (dwSpiTransferOne fifoLen n len txBuf rxBuf true).Inv n (len.toNat / n)
      fifoLen.toNat txBuf rxBuf := dwSpiTransferOne_inv fifoLen hL true
  obtain ⟨es, hrun, hend⟩ := pollTransfer_run k hpoll
  have hinv : t.Inv n (len.toNat / n) fifoLen.toNat txBuf rxBuf := by
    refine run_inv hn hlt ?_ hrun
    exact hstart.of_hw hstart.flow (SpiHw.Frame.refl _) rfl rfl rfl
  have htaken : t.hw.taken.length = len.toNat / n := by
    rw [hinv.rx, hinv.rxEnd] at hend
    have hle := Nat.le_of_mul_le_mul_right hend (by omega)
    have hcount := hinv.flow.count
    have hmost := hinv.le
    omega
  obtain ⟨hwritten, hreceived⟩ := hinv.complete htaken
  exact ⟨⟨hinv.flow.txOver, hinv.flow.rxOver, hinv.flow.rxUnder, hinv.status⟩, hwritten,
    hreceived ▸ htaken, hreceived ▸ hinv.rxMem⟩

/-! ## A transfer can always go on -/

/-- What was written is shifted out in the end. -/
theorem Inv.drain (m : Nat) {s : Transfer} (h : s.Inv n L D txBuf rxBuf)
    (hm : 2 * s.hw.txFifo.length + s.hw.shift.toList.length ≤ m) :
    ∃ fs t, Runs.exec spiStep s fs = some t ∧ t.Inv n L D txBuf rxBuf ∧
      SpiHw.Frame s.hw t.hw ∧ t.hw.txFifo = [] ∧ t.hw.shift = none := by
  induction m generalizing s with
  | zero =>
    refine ⟨[], s, rfl, h, SpiHw.Frame.refl _, List.eq_nil_of_length_eq_zero (by omega), ?_⟩
    cases hshift : s.hw.shift with
    | none => rfl
    | some word => simp [hshift] at hm
  | succ m ih =>
    have hgo : ∀ e, 2 * (s.hw.step e).txFifo.length + (s.hw.step e).shift.toList.length ≤ m →
        ∃ fs t, Runs.exec spiStep s fs = some t ∧ t.Inv n L D txBuf rxBuf ∧
          SpiHw.Frame s.hw t.hw ∧ t.hw.txFifo = [] ∧ t.hw.shift = none := by
      intro e hless
      have hstep : spiStep s (.hw e) = some { s with hw := s.hw.step e } := rfl
      have hinv : ({ s with hw := s.hw.step e } : Transfer).Inv n L D txBuf rxBuf :=
        h.of_hw (h.flow.step e) (s.hw.step_frame e) rfl rfl rfl
      obtain ⟨fs, t, hrun, ht, hframe, htx, hshift⟩ := ih hinv hless
      exact ⟨.hw e :: fs, t, Runs.exec_cons.mpr ⟨_, hstep, hrun⟩, ht,
        (s.hw.step_frame e).trans hframe, htx, hshift⟩
    cases hshift : s.hw.shift with
    | some word =>
      refine hgo (.shiftOut 0) ?_
      have hless : 2 * s.hw.txFifo.length ≤ m := by
        rw [hshift] at hm
        simpa using hm
      simp only [SpiHw.step, hshift]
      split <;> simpa using hless
    | none =>
      cases htx : s.hw.txFifo with
      | nil => exact ⟨[], s, rfl, h, SpiHw.Frame.refl _, htx, hshift⟩
      | cons word txFifo =>
        refine hgo .load ?_
        rw [htx, hshift] at hm
        simp only [List.length_cons, Option.toList_none, List.length_nil] at hm
        simp only [SpiHw.step, hshift, htx, Option.toList_some, List.length_singleton]
        omega

/-- A round of the polling loop gets on, when the words under way have come in: it
writes when there are none, and reads when there are some. -/
theorem Inv.poll_progress (h : s.Inv n L D txBuf rxBuf) (hn : n = 1 ∨ n = 2)
    (hlt : L * n < 4294967296) (hdepth : 0 < D) (htx : s.hw.txFifo = [])
    (hshift : s.hw.shift = none) (hmore : s.hw.taken.length < L) :
    s.hw.written.length + s.hw.taken.length <
      s.pollRound.hw.written.length + s.pollRound.hw.taken.length := by
  have hcount := h.flow.count
  rw [htx, hshift] at hcount
  simp only [List.length_nil, Option.toList_none] at hcount
  have hframe := tick_frame s
  obtain ⟨hinv, hwTaken, hwWritten⟩ := h.dwWriter_spec (by omega) hlt
  obtain ⟨-, hrWritten, hrTaken⟩ := hinv.dwReader_spec hn hlt
  rw [pollRound, hrWritten, hrTaken, hwTaken, hwWritten]
  have htxMax := congrArg Prod.fst (h.txMax_eq (by omega) hlt)
  have hdrain := hframe.txFifo
  rw [htx, List.length_nil] at hdrain
  rw [h.depth] at htxMax
  by_cases hall : s.hw.written.length = s.hw.taken.length
  · -- There is room for a word, and one is left.
    simp only [hall] at htxMax ⊢
    omega
  · by_cases hnone : s.txMax.1 = 0
    · -- Nothing is written, and the reader finds what was there before.
      have hwriter : s.dwWriter = s.tick := by
        rw [Transfer.dwWriter, hnone, h.txMax_eq (by omega) hlt]
        rfl
      have hrxMax := congrArg Prod.fst (h.tick.rxMax_eq (by omega) hlt)
      have hmore := (hframe.trans (tick_frame s.tick)).rxFifo
      rw [hwriter, hrxMax]
      omega
    · omega

/-- **No run is stuck**: whatever state it has reached, it can go on to the end. -/
theorem Inv.can_end (m : Nat) {s : Transfer} (h : s.Inv n L D txBuf rxBuf) (hn : n = 1 ∨ n = 2)
    (hlt : L * n < 4294967296) (hdepth : 0 < D)
    (hm : 2 * L ≤ s.hw.written.length + s.hw.taken.length + m) :
    ∃ fs t, Runs.exec spiStep s fs = some t ∧ t.dws.rx = t.dws.rxEnd := by
  induction m generalizing s with
  | zero =>
    have hcount := h.flow.count
    have hle := h.le
    refine ⟨[], s, rfl, ?_⟩
    rw [h.rx, h.rxEnd, show s.hw.taken.length = L by omega]
  | succ m ih =>
    by_cases hend : s.hw.taken.length = L
    · exact ⟨[], s, rfl, by rw [h.rx, h.rxEnd, hend]⟩
    · obtain ⟨fs, t, hrun, ht, hframe, htx, hshift⟩ := h.drain _ (Nat.le_refl _)
      have hcount := h.flow.count
      have hle := h.le
      have hmore : t.hw.taken.length < L := by
        rw [hframe.taken]
        omega
      have hless := ht.poll_progress hn hlt hdepth htx hshift hmore
      rw [hframe.written, hframe.taken] at hless
      have hstep : spiStep t (.poll t.sched) = some t.pollRound := rfl
      have hround := spiStep_inv hn hlt ht hstep
      obtain ⟨fs', u, hrun', hu⟩ := ih hround (by omega)
      exact ⟨fs ++ .poll t.sched :: fs', u,
        Runs.exec_append.mpr ⟨t, hrun, Runs.exec_cons.mpr ⟨_, hstep, hrun'⟩⟩, hu⟩

end Transfer

open Runs Transfer

/-- **The words of a transfer.**  In every state of every run, whatever the
controller does and when, no more words are under way than the RX FIFO holds, no
FIFO overflows or is read empty, and what was written is a prefix of the transmit
buffer's words.  When the last word is read, all of them were written, as many were
received, and the receive buffer holds these, in order, and nothing else is
changed.  No state is a dead end. -/
theorem transfer_words {n : Nat} (hn : n = 1 ∨ n = 2) (fifoLen len : UInt32) (hdvd : n ∣ len.toNat)
    (txBuf rxBuf : Option (Nat → Byte)) (pollMode : Bool) {es : List SpiEvent} {s : Transfer}
    (hrun : exec spiStep (dwSpiTransferOne fifoLen n len txBuf rxBuf pollMode) es = some s) :
    s.hw.written.length ≤ s.hw.taken.length + fifoLen.toNat ∧
    (s.hw.txOver = false ∧ s.hw.rxOver = false ∧ s.hw.rxUnder = false ∧ s.status = 0) ∧
    s.hw.written <+: txWords n (len.toNat / n) txBuf ∧
    (s.finalized = true → s.dws.rx = s.dws.rxEnd) ∧
    (s.dws.rx = s.dws.rxEnd →
      s.hw.written = txWords n (len.toNat / n) txBuf ∧ s.hw.received.length = len.toNat / n ∧
        ∀ buf mem, s.dws.rxBuf = some buf → rxBuf = some mem →
          (∀ i, i < len.toNat / n → s.hw.received[i]? = some (loadWord n buf (i * n))) ∧
            ∀ off, len.toNat ≤ off → buf off = mem off) ∧
    (0 < fifoLen.toNat →
      ∃ fs t, exec spiStep s fs = some t ∧ t.dws.rx = t.dws.rxEnd) := by
  have hpos : 0 < n := by omega
  have hL : len.toNat = len.toNat / n * n := (Nat.div_mul_cancel hdvd).symm
  have hlt : len.toNat / n * n < 4294967296 := hL ▸ len.toNat_lt
  have hinv := run_inv hn hlt (dwSpiTransferOne_inv fifoLen hL pollMode) hrun
  refine ⟨hinv.depth ▸ hinv.flow.gap, ⟨hinv.flow.txOver, hinv.flow.rxOver, hinv.flow.rxUnder,
    hinv.status⟩, hinv.written, fun hfin => ?_, fun hend => ?_, fun hone => ?_⟩
  · rw [hinv.rx, hinv.rxEnd, hinv.finalized hfin]
  · have htaken := hinv.taken_length hpos hend
    obtain ⟨hwritten, hreceived⟩ := hinv.complete htaken
    refine ⟨hwritten, hreceived ▸ htaken, fun buf mem hbuf hmem => ?_⟩
    have hstored : buf = stored n mem s.hw.taken := by
      have hrx := hinv.rxMem
      rw [hbuf, hmem] at hrx
      exact Option.some_inj.mp hrx
    refine ⟨fun i hi => ?_, fun off hoff => ?_⟩
    · have hword : s.hw.taken[i]? = some s.hw.taken[i] := List.getElem?_eq_getElem (htaken ▸ hi)
      have hmem' : s.hw.taken[i] ∈ s.hw.received := by
        rw [hreceived]
        exact List.getElem_mem _
      have hframe := hinv.flow.frame _ hmem'
      rw [hinv.frame] at hframe
      rw [hreceived, hstored, loadWord_stored hn mem hword hframe, hword]
    · rw [hstored, stored_beyond hn mem (by rw [htaken]; omega)]
  · exact hinv.can_end _ hn hlt hone (Nat.le_add_left _ _)

/-- A transfer of two words by interrupts, through FIFOs of one word. -/
def twoWordsRun : List SpiEvent :=
  [.irq true [], .hw .load, .hw (.shiftOut 0x1234), .irq true [], .hw .load,
    .hw (.shiftOut 0x5678), .irq true []]

theorem transfer_twoWords : ∃ s buf,
    exec spiStep (dwSpiTransferOne 1 2 4 (some fun off => BitVec.ofNat 8 off)
      (some fun _ => 0) false) twoWordsRun = some s ∧
    s.finalized = true ∧ s.hw.written = [0x0100, 0x0302] ∧ s.dws.rxBuf = some buf ∧
    loadWord 2 buf 0 = 0x1234 ∧ loadWord 2 buf 2 = 0x5678 := by
  have hobs : (exec spiStep (dwSpiTransferOne 1 2 4 (some fun off => BitVec.ofNat 8 off)
      (some fun _ => 0) false) twoWordsRun).map (fun s => (s.finalized, s.dws.rxBuf.isSome,
        s.hw.received)) = some (true, true, [0x1234, 0x5678]) := by decide +kernel
  obtain ⟨s, hrun, hobs⟩ := Option.map_eq_some_iff.mp hobs
  simp only [Prod.mk.injEq] at hobs
  obtain ⟨hfin, hbuf, hreceived⟩ := hobs
  obtain ⟨buf, hbuf⟩ := Option.isSome_iff_exists.mp hbuf
  obtain ⟨-, -, -, hend, hall, -⟩ := transfer_words (Or.inr rfl) 1 4 (by decide) _ _ false hrun
  obtain ⟨hwritten, -, hrx⟩ := hall (hend hfin)
  have hword := (hrx buf _ hbuf rfl).1
  rw [hreceived] at hword
  refine ⟨s, buf, hrun, hfin, hwritten.trans (by decide +kernel), hbuf, ?_, ?_⟩
  · exact (Option.some_inj.mp (hword 0 (by decide))).symm
  · exact (Option.some_inj.mp (hword 1 (by decide))).symm

/-- A word goes out and another comes in between two accesses of the second round. -/
theorem pollTransfer_words_one : ∃ t,
    pollTransfer 3 { dwSpiTransferOne 1 2 2 none (some fun _ => 0) true with
      sched := [[], [], [.load, .shiftOut 0x1234]] } = some t ∧ t.hw.received.length = 1 := by
  obtain ⟨t, hpoll⟩ := Option.isSome_iff_exists.mp (by decide +kernel :
    (pollTransfer 3 { dwSpiTransferOne 1 2 2 none (some fun _ => 0) true with
      sched := [[], [], [.load, .shiftOut 0x1234]] }).isSome = true)
  exact ⟨t, hpoll, (pollTransfer_words (.inr rfl) 1 2 (by decide) _ hpoll).2.2.1⟩

end RealtekIpcam.Spi
