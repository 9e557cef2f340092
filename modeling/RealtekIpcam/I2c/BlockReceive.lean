import RealtekIpcam.I2c.BlockLength

/-!
# The length of a block comes in

The reading is foreseen as the writing is.  A byte that is read for a message of known length
changes the real transfer and the foreseen one alike.  The length byte does so too: it gives the
message the length that was foreseen, and what `i2c_dw_recv_len` leaves to be written is what was
foreseen to be left, for the commands that are outstanding then are those of this message.
-/

namespace RealtekIpcam.I2c

variable {msgs ms : List I2cMsg} {bytes : List Byte} {dev : DwI2cDev}

/-- The messages have the lengths that the bytes give them. -/
def Fits (msgs ms : List I2cMsg) (bytes : List Byte) : Prop :=
  ∀ i, (msgAt msgs i).recvLen = true → (msgAt ms i).rd = true →
    ∀ n, bytes[readLenBefore ms i]? = some n →
      0 < n.toNat ∧ n.toNat ≤ i2cSmbusBlockMax ∧ (msgAt ms i).len = blockLen (msgAt ms i) n

theorem fits_knownLengths (hok : LengthsOk msgs bytes) :
    Fits msgs (knownLengths msgs bytes) bytes := by
  intro i hrecv hrd n hn
  by_cases hi : i < msgs.length
  · rw [knownLengths_rd] at hrd
    have hfirst : firstByte msgs bytes i = some n := hn
    obtain ⟨hpos, hle, -⟩ := hok i hi hrd hrecv n hfirst
    refine ⟨hpos, hle, ?_⟩
    rw [knownLengths_len hi hrecv hrd, hfirst, blockLen, msgAt_knownLengths _ _ hi, withFirst_pec]
    rfl
  · rw [msgAt_of_length_le (Nat.le_of_not_lt hi)] at hrecv
    cases hrecv

/-! ## A byte is stored -/

theorem DwI2cDev.store_known (dev : DwI2cDev) (ptr : BufPtr) (byte : Byte) (i : Nat) :
    ((dev.store ptr byte).msg i).len = (dev.msg i).len ∧
      ((dev.store ptr byte).msg i).recvLen = (dev.msg i).recvLen ∧
      ((dev.store ptr byte).msg i).rd = (dev.msg i).rd := by
  simp only [DwI2cDev.store, DwI2cDev.msg, List.getD_eq_getElem?_getD, List.getElem?_modify]
  cases hmsg : dev.msgs[i]? with
  | none => simp
  | some msg =>
    by_cases hi : ptr.msg = i
    · simp [hi, I2cMsg.store]
    · simp [hi]

theorem DwI2cDev.foreseen_store (dev : DwI2cDev) (ptr : BufPtr) (byte : Byte) :
    (dev.store ptr byte).foreseen ms = (dev.foreseen ms).store ptr byte := by
  have hgap : ∀ i, (dev.store ptr byte).gap ms i = dev.gap ms i := by
    intro i
    rw [DwI2cDev.gap, DwI2cDev.gap, (dev.store_known ptr byte i).1]
  have hmsgs : (dev.store ptr byte).msgs.mapIdx
      (fun i msg => { msg with len := (msgAt ms i).len, recvLen := false }) =
      (dev.msgs.mapIdx fun i msg => { msg with len := (msgAt ms i).len, recvLen := false }).modify
        ptr.msg (·.store ptr.off byte) := by
    refine List.ext_getElem? fun i => ?_
    simp only [DwI2cDev.store, List.getElem?_mapIdx, List.getElem?_modify]
    cases dev.msgs[i]? with
    | none => rfl
    | some msg =>
      by_cases hi : ptr.msg = i
      · simp [hi, I2cMsg.store]
      · simp [hi]
  simp only [DwI2cDev.foreseen, hgap, hmsgs]
  rfl

/-! ## The length comes in -/

namespace Transfer

variable {f : Word → Word} {s : Prop} {t : Transfer}

theorem i2cDwRecvLen_len (t : Transfer) {n : Byte} (hn : n.toNat ≤ i2cSmbusBlockMax) :
    (t.i2cDwRecvLen n).1.toNat = blockLen (t.dev.msg t.dev.msgReadIdx) n := by
  have hle : n.toNat ≤ 32 := hn
  simp only [i2cDwRecvLen, blockLen]
  cases (t.dev.msg t.dev.msgReadIdx).pec with
  | true =>
    rw [if_pos rfl, if_pos rfl, BitVec.toNat_add, show (2 : Byte).toNat = 2 from rfl]
    omega
  | false =>
    rw [if_neg Bool.false_ne_true, if_neg Bool.false_ne_true, BitVec.toNat_add,
      show (1 : Byte).toNat = 1 from rfl]
    omega

theorem i2cDwRecvLen_txBufLen (t : Transfer) {n : Byte} (hn : n.toNat ≤ i2cSmbusBlockMax) {k : Nat}
    (hout : t.dev.rxOutstanding = k) (hk : k < blockLen (t.dev.msg t.dev.msgReadIdx) n) :
    (t.i2cDwRecvLen n).2.dev.txBufLen = blockLen (t.dev.msg t.dev.msgReadIdx) n - k := by
  have hlen := t.i2cDwRecvLen_len hn
  have hle : n.toNat ≤ 32 := hn
  have hsmall : blockLen (t.dev.msg t.dev.msgReadIdx) n ≤ 34 := by
    simp only [blockLen]
    split <;> omega
  have hbyte : (BitVec.ofInt 8 t.dev.rxOutstanding).toNat = k := by
    rw [hout, BitVec.ofInt_natCast, BitVec.toNat_ofNat]
    omega
  have hlt : BitVec.ofInt 8 t.dev.rxOutstanding < (t.i2cDwRecvLen n).1 := by
    rw [BitVec.lt_def, hbyte, hlen]
    exact hk
  have htx : (t.i2cDwRecvLen n).2.dev.txBufLen = (t.i2cDwRecvLen n).1.toNat -
      (if BitVec.ofInt 8 t.dev.rxOutstanding < (t.i2cDwRecvLen n).1 then
        BitVec.ofInt 8 t.dev.rxOutstanding else (t.i2cDwRecvLen n).1).toNat := rfl
  rw [htx, if_pos hlt, hbyte, hlen]

theorem i2cDwRecvLen_msg (t : Transfer) (n : Byte) (i : Nat) :
    (t.i2cDwRecvLen n).2.dev.msg i =
      if i = t.dev.msgReadIdx ∧ i < t.dev.msgs.length then
        { t.dev.msg i with len := (t.i2cDwRecvLen n).1.toNat, recvLen := false }
      else t.dev.msg i := by
  have hmsgs : (t.i2cDwRecvLen n).2.dev.msgs = t.dev.msgs.modify t.dev.msgReadIdx
    fun msg => { msg with len := (t.i2cDwRecvLen n).1.toNat, recvLen := false } := rfl
  simp only [DwI2cDev.msg, hmsgs, List.getD_eq_getElem?_getD, List.getElem?_modify]
  by_cases hi : i < t.dev.msgs.length
  · by_cases hidx : t.dev.msgReadIdx = i
    · simp [hi, hidx]
    · have hne : ¬ i = t.dev.msgReadIdx := fun h => hidx h.symm
      simp [hi, hidx, hne]
  · simp [hi]

/-- The length byte fixes the length that was foreseen. -/
theorem foreseen_i2cDwRecvLen {n : Byte} {k : Nat} (h : Lengths msgs ms t.dev)
    (hn : n.toNat ≤ i2cSmbusBlockMax) (hi : t.dev.msgReadIdx < t.dev.msgs.length)
    (hwait : (t.dev.msg t.dev.msgReadIdx).recvLen = true)
    (hlen : (msgAt ms t.dev.msgReadIdx).len = blockLen (t.dev.msg t.dev.msgReadIdx) n)
    (hplace : t.dev.msgWriteIdx = t.dev.msgReadIdx) (hbusy : t.dev.statusWrite = true)
    (hstatus : t.dev.statusRead = false) (hout : t.dev.rxOutstanding = k)
    (hk : k + t.dev.txBufLen = (t.dev.msg t.dev.msgReadIdx).len) :
    (t.i2cDwRecvLen n).2.dev.foreseen ms = t.dev.foreseen ms ∧
      Lengths msgs ms (t.i2cDwRecvLen n).2.dev := by
  have hw := h.waits _ hwait
  have hmsg := t.i2cDwRecvLen_msg n
  have hnew := (t.i2cDwRecvLen_len hn).trans hlen.symm
  have hlt : k < blockLen (t.dev.msg t.dev.msgReadIdx) n := by
    have := hw.len
    omega
  have htx := t.i2cDwRecvLen_txBufLen hn hout hlt
  constructor
  · have hmsgs : (t.i2cDwRecvLen n).2.dev.msgs.mapIdx
        (fun i msg => { msg with len := (msgAt ms i).len, recvLen := false }) =
        t.dev.msgs.mapIdx fun i msg => { msg with len := (msgAt ms i).len, recvLen := false } := by
      refine List.ext_getElem? fun i => ?_
      simp only [i2cDwRecvLen, List.getElem?_mapIdx, List.getElem?_modify]
      cases t.dev.msgs[i]? with
      | none => rfl
      | some msg =>
        by_cases hidx : t.dev.msgReadIdx = i
        · simp [hidx]
        · simp [hidx]
    have hgap : (t.i2cDwRecvLen n).2.dev.gap ms (t.i2cDwRecvLen n).2.dev.msgWriteIdx = 0 := by
      show (msgAt ms t.dev.msgWriteIdx).len -
        ((t.i2cDwRecvLen n).2.dev.msg t.dev.msgWriteIdx).len = 0
      rw [hplace, hmsg, if_pos ⟨rfl, hi⟩, ← hnew]
      exact Nat.sub_self _
    have htxBufLen : (t.i2cDwRecvLen n).2.dev.txBufLen =
        t.dev.txBufLen + t.dev.gap ms t.dev.msgWriteIdx := by
      have := hw.len
      rw [htx, hplace, DwI2cDev.gap, hlen]
      omega
    simp only [DwI2cDev.foreseen, hmsgs, hgap, htxBufLen]
    simp only [i2cDwRecvLen, hbusy, hstatus, if_true, Nat.add_zero, Bool.false_eq_true, if_false]
  · refine ⟨?_, fun i hrecv => ?_, fun i hrecv => ?_⟩
    · show (t.dev.msgs.modify _ _).length = _
      rw [List.length_modify]
      exact h.length
    · by_cases hidx : i = t.dev.msgReadIdx
      · rw [hmsg, if_pos ⟨hidx, hidx ▸ hi⟩] at hrecv
        cases hrecv
      · have hsame : (t.i2cDwRecvLen n).2.dev.msg i = t.dev.msg i := by
          rw [hmsg, if_neg fun hcond => hidx hcond.1]
        rw [hsame] at hrecv
        have hw' := h.waits i hrecv
        refine ⟨hw'.recvLen, ?_, ?_, hw'.writeIdx, ?_, ?_⟩
        · rw [hsame]
          exact hw'.pos
        · rw [hsame]
          exact hw'.len
        · rw [hsame]
          exact hw'.readIdx
        · intro heq
          exact absurd heq.symm hidx
    · rw [hmsg] at hrecv ⊢
      split
      next hidx =>
        rw [hidx.1]
        exact hnew
      next hidx =>
        rw [if_neg hidx] at hrecv
        exact h.known i hrecv

/-- A read command is outstanding at the first byte of a message that is not left: it is one of the
message, which is in progress. -/
theorem SentAt.at_first (hv : View f) {place : WritePlace} {written : List Word} {i : Nat}
    (h : SentAt f ms place written) (hidx : place.idx ≤ i)
    (hmore : readLenBefore ms i < written.countP isRead) :
    place.idx = i ∧ place.busy = true ∧ written.countP isRead =
      readLenBefore ms i + ((msgAt ms i).len - place.bufLen) ∧
      place.bufLen ≤ (msgAt ms i).len := by
  cases hbusy : place.busy with
  | false =>
    have hcount := hv.countP_eq (h.between hbusy)
    rw [countP_streamBefore] at hcount
    have := readLenBefore_mono ms hidx
    omega
  | true =>
    have hw := h.within hbusy
    have hcount := hv.countP_eq hw.written
    rw [countP_streamUpTo] at hcount
    obtain heq | hlt := Nat.eq_or_lt_of_le hidx
    · subst heq
      refine ⟨rfl, rfl, ?_, hw.bufLen⟩
      split at hcount
      · exact hcount
      · omega
    · have hmono := readLenBefore_mono ms hlt
      rw [readLenBefore] at hmono
      split at hcount
      next hrd =>
        rw [if_pos hrd] at hmono
        omega
      next => omega

/-- Bytes were taken at most, from the same controller. -/
structure Takes (t t' : Transfer) : Prop where
  taken : t.hw.taken <+: t'.hw.taken
  conf : t'.hw.conf = t.hw.conf

theorem Takes.refl (t : Transfer) : Takes t t := ⟨List.prefix_rfl, rfl⟩

theorem Takes.trans {t u v : Transfer} (h : Takes t u) (h' : Takes u v) : Takes t v :=
  ⟨h.taken.trans h'.taken, h'.conf.trans h.conf⟩

theorem Takes.tick (t : Transfer) : Takes t t.tick := ⟨by rw [tick_taken], tick_conf t⟩

/-! ## The inner loop foreseen -/

namespace Drain

/-- The inner loop, had it known the length.  It does not look at whether the message is in
progress. -/
def foreseen (d : Drain) (ms : List I2cMsg) : Drain where
  t := { d.t with dev := ({ d.t.dev with statusRead := false } : DwI2cDev).foreseen ms }
  len := d.len + d.t.dev.gap ms d.t.dev.msgReadIdx
  buf := d.buf

/-- The inner loop in message `i`, from the state `t`, with the lengths foreseen. -/
structure Ahead (msgs ms : List I2cMsg) (s : Prop) (t : Transfer) (i : Nat) (d : Drain) :
    Prop where
  inv : (d.foreseen ms).Inv ms s (t.foreseen ms) i
  lengths : Lengths msgs ms { d.t.dev with statusRead := false }
  fresh : (d.t.dev.msg i).recvLen = true → d.len = (d.t.dev.msg i).len

variable {d : Drain} {i : Nat}

theorem round_recvLen (hrecv : (d.t.dev.msg d.t.dev.msgReadIdx).recvLen = true)
    (hpos : 0 < d.t.readDataCmd.1.toNat) (hle : d.t.readDataCmd.1.toNat ≤ i2cSmbusBlockMax) :
    d.round =
      { t := { (d.t.readDataCmd.2.i2cDwRecvLen d.t.readDataCmd.1).2 with
          dev := { (d.t.readDataCmd.2.i2cDwRecvLen d.t.readDataCmd.1).2.dev.store d.buf
              d.t.readDataCmd.1 with
            rxOutstanding := d.t.dev.rxOutstanding - 1 } }
        len := (d.t.readDataCmd.2.i2cDwRecvLen d.t.readDataCmd.1).1.toNat - 1
        buf := d.buf.succ } := by
  have hcond : (d.t.readDataCmd.2.dev.msg d.t.readDataCmd.2.dev.msgReadIdx).recvLen = true ∧
      d.t.readDataCmd.1.toNat ≤ i2cSmbusBlockMax ∧ d.t.readDataCmd.1.toNat > 0 :=
    ⟨hrecv, hle, hpos⟩
  simp only [round, if_pos hcond]
  rfl

theorem round_taken (d : Drain) :
    d.round.t.hw.taken = d.t.hw.taken ++ [d.t.readDataCmd.1] := by
  have hread := (d.t.tick.hw.readDataCmd_frame).1
  rw [tick_taken] at hread
  simp only [round]
  split <;> exact hread

theorem takes_round (d : Drain) : Takes d.t d.round.t := by
  obtain ⟨-, -, hconf, -⟩ := d.t.tick.hw.readDataCmd_frame
  rw [tick_conf] at hconf
  refine ⟨?_, ?_⟩
  · rw [d.round_taken]
    exact List.prefix_append _ _
  · simp only [round]
    split <;> exact hconf

theorem Ahead.round_known (h : d.Ahead msgs ms s t i)
    (hrecv : (d.t.dev.msg i).recvLen = false) :
    (d.foreseen ms).round = d.round.foreseen ms ∧
      Lengths msgs ms { d.round.t.dev with statusRead := false } ∧
      (d.round.t.dev.msg i).recvLen = false := by
  have hidx : d.t.dev.msgReadIdx = i := h.inv.idx
  subst hidx
  have hgap : d.t.dev.gap ms d.t.dev.msgReadIdx = 0 := h.lengths.gap_eq_zero hrecv
  have hstore := d.t.dev.store_known d.buf d.t.readDataCmd.1
  have hround := d.round_eq hrecv
  have hforeseen :
      ((d.foreseen ms).t.dev.msg (d.foreseen ms).t.dev.msgReadIdx).recvLen = false := by
    show ((DwI2cDev.foreseen { d.t.dev with statusRead := false } ms).msg _).recvLen = false
    rw [DwI2cDev.foreseen_msg h.lengths.length]
  refine ⟨?_, ?_, ?_⟩
  · have hgap' : d.round.t.dev.gap ms d.round.t.dev.msgReadIdx = 0 := by
      rw [hround, DwI2cDev.gap]
      show (msgAt ms d.t.dev.msgReadIdx).len -
        ((d.t.dev.store d.buf d.t.readDataCmd.1).msg _).len = 0
      rw [(hstore _).1]
      exact hgap
    have hlen : (d.foreseen ms).len - 1 =
        d.round.len + d.round.t.dev.gap ms d.round.t.dev.msgReadIdx := by
      show d.len + d.t.dev.gap ms d.t.dev.msgReadIdx - 1 = _
      rw [hgap', hgap, hround]
      rfl
    have hstored : (d.foreseen ms).t.dev.store (d.foreseen ms).buf (d.foreseen ms).t.readDataCmd.1 =
        (DwI2cDev.store { d.t.dev with statusRead := false } d.buf d.t.readDataCmd.1).foreseen ms :=
      (DwI2cDev.foreseen_store _ _ _).symm
    rw [(d.foreseen ms).round_eq hforeseen, hlen, hstored]
    simp only [Drain.foreseen, hround]
    rfl
  · rw [hround]
    exact h.lengths.congr (by simp [DwI2cDev.store]) hstore rfl rfl rfl rfl
  · rw [hround]
    exact (hstore _).2.1.trans hrecv

theorem taken_lt_of_byte {hw : I2cHw} {k : Int} (h : hw.Sound k)
    (hbyte : 0 < hw.readDataCmd.1.toNat) : hw.taken.length < hw.written.countP isRead := by
  have hrx : hw.rxFifo ≠ [] := by
    intro hnil
    simp [I2cHw.readDataCmd, hnil] at hbyte
  have ha : hw.Alive := h.phase.resolve_right fun hf => hrx hf.rxFifo
  obtain ⟨done, hcmds, hdone, -⟩ := ha.commands
  have hbytes := congrArg List.length ha.bytes
  have hpos := List.length_pos_iff.mpr hrx
  rw [List.length_append] at hbytes
  rw [hcmds, List.countP_append]
  omega

theorem Ahead.taken_eq (h : d.Ahead msgs ms s t i) (hrecv : (d.t.dev.msg i).recvLen = true) :
    d.t.hw.taken.length = readLenBefore ms i := by
  have hidx : d.t.dev.msgReadIdx = i := h.inv.idx
  subst hidx
  have hgap : (d.t.dev.msg d.t.dev.msgReadIdx).len + d.t.dev.gap ms d.t.dev.msgReadIdx =
      (msgAt ms d.t.dev.msgReadIdx).len := h.lengths.len_add_gap _
  have hfresh := h.fresh hrecv
  have htaken : d.t.hw.taken.length = readLenBefore ms d.t.dev.msgReadIdx +
    ((msgAt ms d.t.dev.msgReadIdx).len -
      (d.len + d.t.dev.gap ms d.t.dev.msgReadIdx)) := h.inv.taken
  omega

/-- **The commands that are outstanding** when the length comes in are those of the message, which
is in progress. -/
theorem Ahead.outstanding (hv : View f) (h : d.Ahead msgs ms s t i)
    (hsent : SentAt f ms (t.foreseen ms).writePlace t.hw.written)
    (hrecv : (d.t.dev.msg i).recvLen = true) (hbyte : 0 < d.t.readDataCmd.1.toNat) :
    d.t.dev.msgWriteIdx = i ∧ d.t.dev.statusWrite = true ∧
      ∃ k : Nat, d.t.dev.rxOutstanding = k ∧ k + d.t.dev.txBufLen = (d.t.dev.msg i).len := by
  have hw := h.lengths.waits _ hrecv
  have htaken := h.taken_eq hrecv
  have hwritten : d.t.hw.written = t.hw.written := h.inv.reads.written
  have hmore : d.t.tick.hw.taken.length < d.t.tick.hw.written.countP isRead :=
    taken_lt_of_byte h.inv.live.tick.sound hbyte
  rw [tick_taken, tick_written, htaken, hwritten] at hmore
  have hplace : (d.foreseen ms).t.writePlace = (t.foreseen ms).writePlace := h.inv.reads.writePlace
  rw [← hplace] at hsent
  obtain ⟨hidx, hbusy, hcount, hle⟩ := hsent.at_first hv hw.writeIdx hmore
  have hidx' : d.t.dev.msgWriteIdx = i := hidx
  have hbusy' : d.t.dev.statusWrite = true := hbusy
  have hout : d.t.dev.rxOutstanding = d.t.hw.written.countP isRead - d.t.hw.taken.length :=
    h.inv.live.sound.outstanding
  have hleft : (d.foreseen ms).t.writePlace.bufLen = d.t.dev.txBufLen + d.t.dev.gap ms i := by
    show d.t.dev.txBufLen +
      (if d.t.dev.statusWrite then d.t.dev.gap ms d.t.dev.msgWriteIdx else 0) = _
    rw [if_pos hbusy', hidx']
  have hgap : (d.t.dev.msg i).len + d.t.dev.gap ms i = (msgAt ms i).len := h.lengths.len_add_gap i
  refine ⟨hidx', hbusy', (d.t.dev.msg i).len - d.t.dev.txBufLen, ?_, ?_⟩
  · rw [hout, hwritten, hcount, htaken]
    omega
  · omega

theorem Ahead.round_waits (hv : View f) (h : d.Ahead msgs ms s t i) (hfits : Fits msgs ms bytes)
    (hsent : SentAt f ms (t.foreseen ms).writePlace t.hw.written) (hi : i < ms.length)
    (hrd : (msgAt ms i).rd = true) (hrecv : (d.t.dev.msg i).recvLen = true)
    (hbytes : d.round.t.hw.taken <+: bytes) :
    (d.foreseen ms).round = d.round.foreseen ms ∧
      Lengths msgs ms { d.round.t.dev with statusRead := false } ∧
      (d.round.t.dev.msg i).recvLen = false := by
  have hfirst : bytes[readLenBefore ms i]? = some d.t.readDataCmd.1 := by
    rw [d.round_taken] at hbytes
    obtain ⟨rest, hrest⟩ := hbytes
    rw [← hrest, ← h.taken_eq hrecv]
    simp
  have hw := h.lengths.waits _ hrecv
  obtain ⟨hpos, hle, hlen⟩ := hfits _ hw.recvLen hrd _ hfirst
  have hmsg := h.inv.live.msg i
  rw [show (d.foreseen ms).t.dev.msg i = _ from DwI2cDev.foreseen_msg h.lengths.length i] at hmsg
  have hpec : (d.t.dev.msg i).pec = (filled ms d.t.hw.taken i).pec := by
    have hpec := congrArg I2cMsg.pec hmsg
    exact hpec
  obtain ⟨hplace, hbusy, k, hout, hk⟩ := h.outstanding hv hsent hrecv hpos
  have hidx : d.t.dev.msgReadIdx = i := h.inv.idx
  subst hidx
  -- The transfer that has taken the byte.
  let u : Transfer := { d.t.readDataCmd.2 with
    dev := { d.t.dev with statusRead := false } }
  have hlen' : (msgAt ms d.t.dev.msgReadIdx).len =
      blockLen (d.t.dev.msg d.t.dev.msgReadIdx) d.t.readDataCmd.1 := by
    rw [hlen, blockLen, blockLen, hpec]
    rfl
  have hi' : d.t.dev.msgReadIdx < d.t.dev.msgs.length := by
    rw [show d.t.dev.msgs.length = ms.length from h.lengths.length]
    exact hi
  obtain ⟨hforeseen, hlengths⟩ := foreseen_i2cDwRecvLen (t := u) h.lengths hle hi' hrecv hlen'
    hplace hbusy rfl hout hk
  have hnew :
      ((u.i2cDwRecvLen d.t.readDataCmd.1).2.dev.msg d.t.dev.msgReadIdx).recvLen = false := by
    rw [i2cDwRecvLen_msg, if_pos ⟨rfl, hi'⟩]
  have hstore := (u.i2cDwRecvLen d.t.readDataCmd.1).2.dev.store_known d.buf d.t.readDataCmd.1
  have hround := round_recvLen hrecv hpos hle
  have hlast : (d.round.t.dev.msg d.t.dev.msgReadIdx).recvLen = false := by
    rw [hround]
    exact (hstore _).2.1.trans hnew
  have hkept : Lengths msgs ms { d.round.t.dev with statusRead := false } := by
    rw [hround]
    exact hlengths.congr (by simp [DwI2cDev.store]; rfl) hstore rfl rfl rfl rfl
  refine ⟨?_, hkept, hlast⟩
  have hknown : ((d.foreseen ms).t.dev.msg (d.foreseen ms).t.dev.msgReadIdx).recvLen = false := by
    show ((DwI2cDev.foreseen { d.t.dev with statusRead := false } ms).msg _).recvLen = false
    rw [DwI2cDev.foreseen_msg h.lengths.length]
  have hlen'' : (d.foreseen ms).len - 1 =
      d.round.len + d.round.t.dev.gap ms d.round.t.dev.msgReadIdx := by
    have hfull : (d.foreseen ms).len = (msgAt ms d.t.dev.msgReadIdx).len := by
      have hgap : (d.t.dev.msg d.t.dev.msgReadIdx).len + d.t.dev.gap ms d.t.dev.msgReadIdx =
          (msgAt ms d.t.dev.msgReadIdx).len := h.lengths.len_add_gap _
      rw [← hgap, ← h.fresh hrecv]
      rfl
    have hidx : d.round.t.dev.msgReadIdx = d.t.dev.msgReadIdx := by
      rw [hround]
      rfl
    have hnone : d.round.t.dev.gap ms d.t.dev.msgReadIdx = 0 := hkept.gap_eq_zero hlast
    have hgot : d.round.len = (u.i2cDwRecvLen d.t.readDataCmd.1).1.toNat - 1 := by
      rw [hround]
      rfl
    rw [hidx, hnone, hgot, hfull, hlen', i2cDwRecvLen_len _ hle]
    rfl
  have hstored : (d.foreseen ms).t.dev.store (d.foreseen ms).buf (d.foreseen ms).t.readDataCmd.1 =
      ((u.i2cDwRecvLen d.t.readDataCmd.1).2.dev.store d.buf d.t.readDataCmd.1).foreseen ms := by
    rw [DwI2cDev.foreseen_store, hforeseen]
    rfl
  rw [(d.foreseen ms).round_eq hknown, hlen'', hstored]
  simp only [Drain.foreseen, hround]
  rfl

/-- A byte is read as in the run whose lengths are known. -/
theorem Ahead.round (hp : Plain ms) (hv : View f) (h : d.Ahead msgs ms s t i)
    (hfits : Fits msgs ms bytes) (hsent : SentAt f ms (t.foreseen ms).writePlace t.hw.written)
    (hi : i < ms.length) (hrd : (msgAt ms i).rd = true) (hpos : 0 < d.len) {n : Nat}
    (hvalid : d.t.hw.txAbrt = false → n + 1 ≤ d.t.hw.rxFifo.length)
    (hbytes : d.round.t.hw.taken <+: bytes) :
    d.round.Ahead msgs ms s t i ∧
      (d.round.t.hw.txAbrt = false → n ≤ d.round.t.hw.rxFifo.length) := by
  have hround : (d.foreseen ms).round = d.round.foreseen ms ∧
      Lengths msgs ms { d.round.t.dev with statusRead := false } ∧
      (d.round.t.dev.msg i).recvLen = false := by
    cases hrecv : (d.t.dev.msg i).recvLen with
    | false => exact h.round_known hrecv
    | true => exact h.round_waits hv hfits hsent hi hrd hrecv hbytes
  obtain ⟨hforeseen, hlengths, hknown⟩ := hround
  obtain ⟨hinv, hvalid'⟩ := h.inv.round hp hi hrd (hpos.trans_le (Nat.le_add_right _ _)) hvalid
  rw [hforeseen] at hinv hvalid'
  exact ⟨⟨hinv, hlengths, fun hrecv => absurd hrecv (Bool.eq_false_iff.mp hknown)⟩, hvalid'⟩

theorem takes_run (n : Nat) (d : Drain) : Takes d.t (Drain.run n d).t := by
  induction n generalizing d with
  | zero => exact Takes.refl _
  | succ n ih =>
    rw [Drain.run]
    split
    · exact (takes_round d).trans (ih d.round)
    · exact Takes.refl _

theorem Ahead.run (hp : Plain ms) (hv : View f) (hfits : Fits msgs ms bytes)
    (hsent : SentAt f ms (t.foreseen ms).writePlace t.hw.written) (hi : i < ms.length)
    (hrd : (msgAt ms i).rd = true) (n : Nat) {d : Drain} (h : d.Ahead msgs ms s t i)
    (hvalid : d.t.hw.txAbrt = false → n ≤ d.t.hw.rxFifo.length)
    (hbytes : (Drain.run n d).t.hw.taken <+: bytes) :
    (Drain.run n d).Ahead msgs ms s t i := by
  induction n generalizing d with
  | zero => exact h
  | succ n ih =>
    rw [Drain.run] at hbytes ⊢
    split
    next hpos =>
      rw [if_pos hpos] at hbytes
      obtain ⟨hround, hvalid'⟩ :=
        h.round hp hv hfits hsent hi hrd hpos hvalid ((takes_run n d.round).taken.trans hbytes)
      exact ih hround hvalid' hbytes
    next => exact h

theorem Ahead.pos_of_waits (h : d.Ahead msgs ms s t i) (hrecv : (d.t.dev.msg i).recvLen = true) :
    0 < d.len := by
  rw [h.fresh hrecv]
  exact (h.lengths.waits i hrecv).pos

theorem Ahead.foreseen_finish (h : d.Ahead msgs ms s t i) :
    (d.foreseen ms).finish = (d.finish.1.foreseen ms, d.finish.2) := by
  have hidx : d.t.dev.msgReadIdx = i := h.inv.idx
  subst hidx
  have hleft : (d.foreseen ms).len > 0 ↔ d.len > 0 := by
    show d.len + d.t.dev.gap ms d.t.dev.msgReadIdx > 0 ↔ _
    have hgap : 0 < d.t.dev.gap ms d.t.dev.msgReadIdx → 0 < d.len :=
      fun hpos => h.pos_of_waits ((h.lengths.gap_pos_iff _).mp hpos)
    omega
  simp only [finish, if_congr hleft rfl rfl]
  split <;> rfl

theorem Ahead.finish_lengths (h : d.Ahead msgs ms s t i) :
    Lengths msgs ms d.finish.1.dev ∧
      (d.finish.1.dev.statusRead = true → 0 < d.finish.1.dev.rxBufLen) := by
  have hidx : d.t.dev.msgReadIdx = i := h.inv.idx
  subst hidx
  simp only [finish]
  split
  next hpos =>
    refine ⟨⟨h.lengths.length, fun i hrecv => ?_, h.lengths.known⟩, fun _ => hpos⟩
    have hw := h.lengths.waits i hrecv
    refine ⟨hw.recvLen, hw.pos, hw.len, hw.writeIdx, hw.readIdx, fun heq _ => ?_⟩
    have heq' : d.t.dev.msgReadIdx = i := heq
    subst heq'
    exact h.fresh hrecv
  next hdone =>
    refine ⟨⟨h.lengths.length, fun i hrecv => ?_, h.lengths.known⟩, fun hbusy => (by cases hbusy)⟩
    have hw := h.lengths.waits i hrecv
    refine ⟨hw.recvLen, hw.pos, hw.len, hw.writeIdx, fun hrd => ?_, fun _ hbusy => (by cases hbusy)⟩
    have hle : d.t.dev.msgReadIdx ≤ i := hw.readIdx hrd
    refine Nat.lt_of_le_of_ne hle fun heq => hdone ?_
    subst heq
    exact h.pos_of_waits hrecv

end Drain

/-! ## The outer loop foreseen -/

/-- What the reading keeps, with the lengths foreseen. -/
structure Reading (msgs ms : List I2cMsg) (s : Prop) (t : Transfer) : Prop where
  live : (t.foreseen ms).Live ms s
  recv : RecvAt ms (t.foreseen ms).readPlace t.hw.taken
  lengths : Lengths msgs ms t.dev
  left : t.dev.statusRead = true → 0 < t.dev.rxBufLen

theorem Reading.drainStart (h : t.Reading msgs ms s) :
    t.drainStart.Ahead msgs ms s t t.dev.msgReadIdx := by
  have hmsg := DwI2cDev.foreseen_msg h.lengths.length t.dev.msgReadIdx
  have hinv := drainStart_inv h.live h.recv
  have hlen : (t.foreseen ms).drainStart.len = (t.drainStart.foreseen ms).len := by
    show (if t.dev.statusRead then
        (if t.dev.statusRead then t.dev.rxBufLen + t.dev.gap ms t.dev.msgReadIdx else 0)
      else ((t.dev.foreseen ms).msg t.dev.msgReadIdx).len) =
      (if t.dev.statusRead then t.dev.rxBufLen else (t.dev.msg t.dev.msgReadIdx).len) +
        t.dev.gap ms t.dev.msgReadIdx
    cases t.dev.statusRead with
    | true => rfl
    | false =>
      rw [hmsg]
      exact (h.lengths.len_add_gap _).symm
  refine ⟨⟨?_, ?_, rfl, ?_, ?_, ?_⟩, ?_, fun hrecv => ?_⟩
  · exact hinv.live.of_dev rfl rfl ⟨rfl, rfl⟩ rfl
  · exact ⟨rfl, tick_written t, tick_conf t, tick_intrMask t, rfl, rfl, rfl, rfl, rfl⟩
  · rw [← hlen]
    exact hinv.len
  · rw [← hlen]
    exact hinv.buf
  · rw [← hlen]
    exact hinv.taken
  · refine ⟨h.lengths.length, fun i hrecv => ?_, h.lengths.known⟩
    have hw := h.lengths.waits i hrecv
    exact ⟨hw.recvLen, hw.pos, hw.len, hw.writeIdx, hw.readIdx, fun _ hbusy => (by cases hbusy)⟩
  · show (if t.dev.statusRead then t.dev.rxBufLen else (t.dev.msg t.dev.msgReadIdx).len) =
      (t.dev.msg t.dev.msgReadIdx).len
    split
    next hbusy => exact (h.lengths.waits _ hrecv).rxBufLen rfl hbusy
    next => rfl

theorem Reading.readRound (hp : Plain ms) (hv : View f) (h : t.Reading msgs ms s)
    (hfits : Fits msgs ms bytes) (hsent : SentAt f ms (t.foreseen ms).writePlace t.hw.written)
    (hi : t.dev.msgReadIdx < ms.length) (hrd : (msgAt ms t.dev.msgReadIdx).rd = true)
    (hbytes : t.readRound.1.hw.taken <+: bytes) :
    t.readRound.1.Reading msgs ms s ∧ Reads (t.foreseen ms) (t.readRound.1.foreseen ms) := by
  rw [readRound_eq] at hbytes ⊢
  generalize hn : t.tick.hw.rxFifo.length = n at hbytes ⊢
  have hhw : ∀ d : Drain, d.finish.1.hw = d.t.hw := by
    intro d
    simp only [Drain.finish]
    split <;> rfl
  rw [hhw] at hbytes
  have hrun := h.drainStart.run hp hv hfits hsent hi hrd n (fun _ => hn.symm.le) hbytes
  obtain ⟨⟨hlive, hrecv, hreads⟩, -, -⟩ := hrun.inv.finish hi hrd
  rw [hrun.foreseen_finish] at hlive hrecv hreads
  obtain ⟨hlengths, hleft⟩ := hrun.finish_lengths
  exact ⟨⟨hlive, hrecv, hlengths, hleft⟩, hreads⟩

theorem Reading.skip (h : t.Reading msgs ms s) (hi : t.dev.msgReadIdx < ms.length)
    (hrd : (msgAt ms t.dev.msgReadIdx).rd = false) {t' : Transfer}
    (ht' : t' = { t with dev := { t.dev with msgReadIdx := t.dev.msgReadIdx + 1 } }) :
    t'.Reading msgs ms s ∧ Reads (t.foreseen ms) (t'.foreseen ms) := by
  subst ht'
  have hidle : t.dev.statusRead = false := by
    cases hbusy : t.dev.statusRead
    · rfl
    · have := (h.recv.within hbusy).2.1
      rw [show (t.foreseen ms).readPlace.idx = t.dev.msgReadIdx from rfl, hrd] at this
      cases this
  refine ⟨⟨?_, ⟨hi, fun _ => ?_, fun hbusy => ?_⟩, ?_, h.left⟩,
    ⟨rfl, rfl, rfl, rfl, rfl, rfl, rfl, rfl, rfl⟩⟩
  · exact h.live.of_dev rfl rfl ⟨rfl, rfl⟩ rfl
  · show t.hw.taken.length = readLenBefore ms (t.dev.msgReadIdx + 1)
    rw [readLenBefore, hrd, if_neg (by simp), Nat.add_zero]
    exact h.recv.between hidle
  · exact absurd (show t.dev.statusRead = true from hbusy) (by simp [hidle])
  · refine ⟨h.lengths.length, fun i hrecv => ?_, h.lengths.known⟩
    have hw := h.lengths.waits i hrecv
    refine ⟨hw.recvLen, hw.pos, hw.len, hw.writeIdx, fun hread => ?_, fun _ hbusy => ?_⟩
    · have hle := hw.readIdx hread
      refine Nat.lt_of_le_of_ne hle fun heq => ?_
      have hmsg : (t.dev.msg i).rd = (msgAt ms i).rd := by
        rw [← h.live.rd i, show (t.foreseen ms).dev.msg i = _ from
          DwI2cDev.foreseen_msg h.lengths.length i]
      rw [← heq, hrd, heq] at hmsg
      rw [show (t.dev.msg i).rd = true from hread] at hmsg
      cases hmsg
    · exact absurd (show t.dev.statusRead = true from hbusy) (by simp [hidle])

theorem takes_readRound (t : Transfer) : Takes t t.readRound.1 := by
  have hrun := (Takes.tick t).trans (Drain.takes_run t.tick.hw.rxFifo.length t.drainStart)
  rw [readRound_eq, Drain.finish]
  split <;> exact ⟨hrun.taken, hrun.conf⟩

theorem takes_readLoop (n : Nat) (t : Transfer) : Takes t (readLoop n t) := by
  induction n generalizing t with
  | zero => exact Takes.refl _
  | succ n ih =>
    rw [readLoop]
    split
    · split
      · split
        · exact (takes_readRound t).trans (ih _)
        · exact takes_readRound t
      · have hskip := ih { t with dev := { t.dev with msgReadIdx := t.dev.msgReadIdx + 1 } }
        exact ⟨hskip.taken, hskip.conf⟩
    · exact Takes.refl _

/-- **`i2c_dw_read`** gives the messages the lengths that were foreseen. -/
theorem Reading.readLoop (hp : Plain ms) (hv : View f) (hfits : Fits msgs ms bytes) (n : Nat)
    {t : Transfer} (h : t.Reading msgs ms s)
    (hsent : SentAt f ms (t.foreseen ms).writePlace t.hw.written)
    (hbytes : (readLoop n t).hw.taken <+: bytes) :
    (readLoop n t).Reading msgs ms s ∧ Reads (t.foreseen ms) ((readLoop n t).foreseen ms) := by
  induction n generalizing t with
  | zero => exact ⟨h, Reads.refl _⟩
  | succ n ih =>
    have hmore : ∀ t' : Transfer, t'.Reading msgs ms s ∧ Reads (t.foreseen ms) (t'.foreseen ms) →
        (Transfer.readLoop n t').hw.taken <+: bytes →
        (Transfer.readLoop n t').Reading msgs ms s ∧
          Reads (t.foreseen ms) ((Transfer.readLoop n t').foreseen ms) := by
      rintro t' ⟨h', hreads⟩ hbytes'
      have hsent' : SentAt f ms (t'.foreseen ms).writePlace t'.hw.written := by
        rw [hreads.writePlace, show t'.hw.written = t.hw.written from hreads.written]
        exact hsent
      obtain ⟨hl, hr⟩ := ih h' hsent' hbytes'
      exact ⟨hl, hreads.trans hr⟩
    have hlen := h.lengths.length
    have hread : (t.dev.msg t.dev.msgReadIdx).rd = (msgAt ms t.dev.msgReadIdx).rd := by
      rw [← h.live.rd, show (t.foreseen ms).dev.msg _ = _ from
        DwI2cDev.foreseen_msg h.lengths.length _]
    rw [Transfer.readLoop, hread] at hbytes ⊢
    by_cases hi : t.dev.msgReadIdx < t.dev.msgs.length
    · rw [if_pos hi] at hbytes ⊢
      rw [hlen] at hi
      by_cases hrd : (msgAt ms t.dev.msgReadIdx).rd = true
      · rw [if_pos hrd] at hbytes ⊢
        by_cases hround : t.readRound.2 = true
        · rw [if_pos hround] at hbytes ⊢
          exact hmore _ (h.readRound hp hv hfits hsent hi hrd
            ((takes_readLoop n _).taken.trans hbytes)) hbytes
        · rw [if_neg hround] at hbytes ⊢
          exact h.readRound hp hv hfits hsent hi hrd hbytes
      · rw [if_neg hrd] at hbytes ⊢
        exact hmore _ (h.skip hi (by simpa using hrd) rfl) hbytes
    · rw [if_neg hi]
      exact ⟨h, Reads.refl _⟩

end Transfer

end RealtekIpcam.I2c
