import Mathlib
import RealtekIpcam.I2c.Master

/-!
# What a transfer means

The commands of the messages, in order, are one for each byte, with a restart before every
message but the first and a stop after the last byte: `commandStream`.  The bytes that come in
fill the buffers of the read messages, in order: `filled`.  These are the two things that the
driver is for; it does them in pieces, from two places in the messages that move on
independently.
-/

namespace RealtekIpcam.I2c

/-- `msgs[idx]`. -/
def msgAt (msgs : List I2cMsg) (i : Nat) : I2cMsg :=
  msgs.getD i ⟨0, false, false, false, 0, fun _ => 0⟩

/-- Messages of at least one byte, without `I2C_M_RECV_LEN`. -/
def Plain (msgs : List I2cMsg) : Prop := ∀ msg ∈ msgs, 0 < msg.len ∧ msg.recvLen = false
  deriving Decidable

variable {msgs : List I2cMsg} {i j : Nat}

theorem Plain.len_pos (hp : Plain msgs) (hi : i < msgs.length) : 0 < (msgAt msgs i).len := by
  rw [msgAt, List.getD_eq_getElem _ _ hi]
  exact (hp _ (List.getElem_mem hi)).1

theorem Plain.recvLen (hp : Plain msgs) (i : Nat) : (msgAt msgs i).recvLen = false := by
  by_cases hi : i < msgs.length
  · rw [msgAt, List.getD_eq_getElem _ _ hi]
    exact (hp _ (List.getElem_mem hi)).2
  · rw [msgAt, List.getD_eq_default _ _ (Nat.le_of_not_lt hi)]

/-! ## The commands -/

/-- The stop bit for byte `j` of message `i`. -/
def stopBit (msgs : List I2cMsg) (i j : Nat) : Word :=
  if i + 1 = msgs.length ∧ j + 1 = (msgAt msgs i).len then 0x200 else 0

/-- The data, or the bit that asks for some. -/
def dataBits (msgs : List I2cMsg) (i j : Nat) : Word :=
  if (msgAt msgs i).rd then 0x100 else ((msgAt msgs i).buf j).setWidth 32

/-- The command for byte `j` of message `i`. -/
def commandOf (msgs : List I2cMsg) (i j : Nat) : Word :=
  (if 0 < i ∧ j = 0 then stopBit msgs i j ||| 0x400 else stopBit msgs i j) ||| dataBits msgs i j

/-- The commands of the first messages. -/
def streamBefore (msgs : List I2cMsg) (n : Nat) : List Word :=
  (List.range n).flatMap fun i => (List.range (msgAt msgs i).len).map (commandOf msgs i)

/-- The commands before byte `j` of message `i`. -/
def streamUpTo (msgs : List I2cMsg) (i j : Nat) : List Word :=
  streamBefore msgs i ++ (List.range j).map (commandOf msgs i)

/-- The commands of all messages. -/
def commandStream (msgs : List I2cMsg) : List Word := streamBefore msgs msgs.length

@[simp] theorem streamUpTo_zero (msgs : List I2cMsg) (i : Nat) :
    streamUpTo msgs i 0 = streamBefore msgs i := by
  simp [streamUpTo]

theorem streamUpTo_succ (msgs : List I2cMsg) (i j : Nat) :
    streamUpTo msgs i (j + 1) = streamUpTo msgs i j ++ [commandOf msgs i j] := by
  simp [streamUpTo, List.range_succ]

theorem streamUpTo_len (msgs : List I2cMsg) (i : Nat) :
    streamUpTo msgs i (msgAt msgs i).len = streamBefore msgs (i + 1) := by
  simp [streamUpTo, streamBefore, List.range_succ]

theorem streamBefore_mono {n m : Nat} (h : n ≤ m) :
    streamBefore msgs n <+: streamBefore msgs m := by
  induction m, h using Nat.le_induction with
  | base => exact List.prefix_rfl
  | succ m _ ih =>
    rw [← streamUpTo_len]
    exact ih.trans (List.prefix_append _ _)

theorem streamUpTo_mono {j k : Nat} (h : j ≤ k) :
    streamUpTo msgs i j <+: streamUpTo msgs i k := by
  induction k, h using Nat.le_induction with
  | base => exact List.prefix_rfl
  | succ k _ ih =>
    rw [streamUpTo_succ]
    exact ih.trans (List.prefix_append _ _)

theorem streamUpTo_le_stream (hi : i < msgs.length) (hj : j ≤ (msgAt msgs i).len) :
    streamUpTo msgs i j <+: commandStream msgs := by
  refine (streamUpTo_mono hj).trans ?_
  rw [streamUpTo_len]
  exact streamBefore_mono hi

theorem mem_streamUpTo {cmd : Word} (h : cmd ∈ streamUpTo msgs i j) :
    (∃ i' j', i' < i ∧ j' < (msgAt msgs i').len ∧ cmd = commandOf msgs i' j') ∨
      ∃ j', j' < j ∧ cmd = commandOf msgs i j' := by
  rw [streamUpTo, List.mem_append] at h
  rcases h with h | h
  · obtain ⟨i', hi', h⟩ := List.mem_flatMap.mp h
    obtain ⟨j', hj', rfl⟩ := List.mem_map.mp h
    exact Or.inl ⟨i', j', List.mem_range.mp hi', List.mem_range.mp hj', rfl⟩
  · obtain ⟨j', hj', rfl⟩ := List.mem_map.mp h
    exact Or.inr ⟨j', List.mem_range.mp hj', rfl⟩

theorem dataBits_isRead (msgs : List I2cMsg) (i j : Nat) :
    isRead (dataBits msgs i j) = (msgAt msgs i).rd := by
  unfold dataBits isRead
  split
  next h => simp [h]
  next h => simp [h]

theorem dataBits_isStop (msgs : List I2cMsg) (i j : Nat) : isStop (dataBits msgs i j) = false := by
  unfold dataBits isStop
  split <;> simp

theorem stopBit_isRead (msgs : List I2cMsg) (i j : Nat) : isRead (stopBit msgs i j) = false := by
  unfold stopBit isRead
  split <;> simp

theorem stopBit_isStop (msgs : List I2cMsg) (i j : Nat) :
    isStop (stopBit msgs i j) =
      decide (i + 1 = msgs.length ∧ j + 1 = (msgAt msgs i).len) := by
  unfold stopBit isStop
  split
  next h => simp [h]
  next h => simp [h]

theorem isRead_or (a b : Word) : isRead (a ||| b) = (isRead a || isRead b) := BitVec.getLsbD_or

theorem isStop_or (a b : Word) : isStop (a ||| b) = (isStop a || isStop b) := BitVec.getLsbD_or

theorem commandOf_isRead (msgs : List I2cMsg) (i j : Nat) :
    isRead (commandOf msgs i j) = (msgAt msgs i).rd := by
  have hrestart : isRead 1024#32 = false := by decide
  rw [commandOf, isRead_or, dataBits_isRead]
  split <;> simp [isRead_or, stopBit_isRead, hrestart]

theorem commandOf_isStop (msgs : List I2cMsg) (i j : Nat) :
    isStop (commandOf msgs i j) =
      decide (i + 1 = msgs.length ∧ j + 1 = (msgAt msgs i).len) := by
  have hrestart : isStop 1024#32 = false := by decide
  rw [commandOf, isStop_or, dataBits_isStop]
  split <;> simp [isStop_or, stopBit_isStop, hrestart]

theorem noStop_streamUpTo (hi : i < msgs.length) (hj : j < (msgAt msgs i).len) :
    ∀ cmd ∈ streamUpTo msgs i j, isStop cmd = false := by
  intro cmd hcmd
  rcases mem_streamUpTo hcmd with ⟨i', j', hi', -, rfl⟩ | ⟨j', hj', rfl⟩
  · rw [commandOf_isStop, decide_eq_false_iff_not]
    omega
  · rw [commandOf_isStop, decide_eq_false_iff_not]
    omega

/-! ## The bytes -/

/-- The bytes that the first messages read. -/
def readLenBefore (msgs : List I2cMsg) : Nat → Nat
  | 0 => 0
  | n + 1 => readLenBefore msgs n + if (msgAt msgs n).rd then (msgAt msgs n).len else 0

/-- The bytes that all messages read. -/
def readLen (msgs : List I2cMsg) : Nat := readLenBefore msgs msgs.length

/-- Message `i` with the bytes that have come in for it. -/
def filled (msgs : List I2cMsg) (bytes : List Byte) (i : Nat) : I2cMsg :=
  { msgAt msgs i with
    buf := fun off =>
      if (msgAt msgs i).rd ∧ off < (msgAt msgs i).len then
        bytes.getD (readLenBefore msgs i + off) ((msgAt msgs i).buf off)
      else (msgAt msgs i).buf off }

theorem readLenBefore_mono (msgs : List I2cMsg) {n m : Nat} (h : n ≤ m) :
    readLenBefore msgs n ≤ readLenBefore msgs m := by
  induction m, h using Nat.le_induction with
  | base => exact Nat.le_refl _
  | succ m _ ih => exact Nat.le_trans ih (Nat.le_add_right _ _)

theorem readLenBefore_succ (hrd : (msgAt msgs i).rd = true) :
    readLenBefore msgs (i + 1) = readLenBefore msgs i + (msgAt msgs i).len := by
  rw [readLenBefore, if_pos hrd]

theorem countP_commands (msgs : List I2cMsg) (i j : Nat) :
    ((List.range j).map (commandOf msgs i)).countP isRead =
      if (msgAt msgs i).rd then j else 0 := by
  rw [List.countP_map]
  cases hrd : (msgAt msgs i).rd
  · simp [Function.comp_def, commandOf_isRead, hrd]
  · simp [Function.comp_def, commandOf_isRead, hrd]

theorem countP_streamBefore (msgs : List I2cMsg) (n : Nat) :
    (streamBefore msgs n).countP isRead = readLenBefore msgs n := by
  induction n with
  | zero => rfl
  | succ n ih =>
    rw [← streamUpTo_len, streamUpTo, List.countP_append, ih, countP_commands, readLenBefore]

theorem countP_streamUpTo (msgs : List I2cMsg) (i j : Nat) :
    (streamUpTo msgs i j).countP isRead =
      readLenBefore msgs i + if (msgAt msgs i).rd then j else 0 := by
  rw [streamUpTo, List.countP_append, countP_streamBefore, countP_commands]

theorem readPos_inj {i' j' : Nat} (hrd : (msgAt msgs i).rd = true) (hj : j < (msgAt msgs i).len)
    (hrd' : (msgAt msgs i').rd = true) (hj' : j' < (msgAt msgs i').len)
    (h : readLenBefore msgs i + j = readLenBefore msgs i' + j') : i = i' ∧ j = j' := by
  rcases Nat.lt_trichotomy i i' with hlt | rfl | hlt
  · have := readLenBefore_mono msgs hlt
    rw [readLenBefore_succ hrd] at this
    omega
  · exact ⟨rfl, by omega⟩
  · have := readLenBefore_mono msgs hlt
    rw [readLenBefore_succ hrd'] at this
    omega

theorem filled_nil (msgs : List I2cMsg) (i : Nat) : filled msgs [] i = msgAt msgs i := by
  simp [filled]

theorem filled_append (bytes : List Byte) (byte : Byte) (hrd : (msgAt msgs i).rd = true)
    (hj : j < (msgAt msgs i).len) (hpos : bytes.length = readLenBefore msgs i + j) (i' : Nat) :
    filled msgs (bytes ++ [byte]) i' =
      if i' = i then (filled msgs bytes i).store j byte else filled msgs bytes i' := by
  have hget : ∀ k old, (bytes ++ [byte]).getD k old =
      if k = bytes.length then byte else bytes.getD k old := by
    intro k old
    rcases Nat.lt_trichotomy k bytes.length with hlt | rfl | hlt
    · rw [List.getD_append _ _ _ _ hlt, if_neg (by omega)]
    · simp
    · rw [List.getD_eq_default _ _ (by simp; omega), List.getD_eq_default _ _ (by omega),
        if_neg (by omega)]
  by_cases hii : i' = i
  · subst hii
    rw [if_pos rfl]
    simp only [filled, I2cMsg.store, I2cMsg.mk.injEq, true_and]
    funext off
    rw [Function.update_apply]
    by_cases hoff : off = j
    · subst hoff
      rw [if_pos rfl, if_pos ⟨hrd, hj⟩, hget, if_pos hpos.symm]
    · rw [if_neg hoff, hget, if_neg (show ¬readLenBefore msgs i' + off = bytes.length by omega)]
  · rw [if_neg hii]
    simp only [filled, I2cMsg.mk.injEq, true_and]
    funext off
    by_cases hoff : (msgAt msgs i').rd = true ∧ off < (msgAt msgs i').len
    · rw [if_pos hoff, if_pos hoff, hget, if_neg]
      intro heq
      exact hii (readPos_inj hoff.1 hoff.2 hrd hj (heq.trans hpos)).1
    · rw [if_neg hoff, if_neg hoff]

end RealtekIpcam.I2c
