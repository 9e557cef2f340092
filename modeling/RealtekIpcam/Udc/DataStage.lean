import RealtekIpcam.Udc.Board

/-!
# The data stage on ep0

`rts_ep0_queue` starts the first packet of a request, and each packet interrupt accounts for a
packet and starts the next one.

Towards the host a request of `L` bytes goes as `Packets.split 64` cuts it: the test
`actual < maxpacket` that ends a transfer early does not fire in the middle, since the first packet
of a transfer with more than one is full.
-/

namespace RealtekIpcam.Board

open Udc PacketBuffer Packets Ram Runs

variable {complete : Complete} {b b₀ : Board} {r : ReqId} {bs : List UInt8} {k : Nat}

/-- A request at the head of ep0's queue, with nothing moved so far. -/
structure Stage (r : ReqId) (dirIn : Bool) (b : Board) : Prop where
  head : ∃ l, (b.udc.ep ep0).queue = r :: l
  dirIn : (b.udc.ep ep0).dirIn = dirIn
  maxpacket : (b.udc.ep ep0).maxpacket = 0x40
  actual : (b.udc.req r).actual = 0

/-- The interrupt for a packet on ep0. -/
def ep0Irq (complete : Complete) (b : Board) (_ : Unit) : Option Done × Board :=
  b.rtsEp0TransferProcess complete ep0

/-! ## IN packets -/

/-- The transfer of `bs`, which lies in the buffer of `r`, with the packets before `k` handed
over. -/
structure AtPacket (b₀ : Board) (r : ReqId) (bs : List UInt8) (k : Nat) (b : Board) : Prop where
  ep : b.udc.ep ep0 = b₀.udc.ep ep0
  progress : Progress r 64 bs.length k b.udc
  ram : b.ram = b₀.ram
  buf : b.buf r = b₀.buf r
  sent : b.ep0Sent = b₀.ep0Sent ++ (split 64 bs).take k

/-- The transfer of `bs` with the packet `k` in the FIFO. -/
structure Sending (b₀ : Board) (r : ReqId) (bs : List UInt8) (k : Nat) (b : Board) : Prop where
  ep : b.udc.ep ep0 = b₀.udc.ep ep0
  progress : Progress r 64 bs.length k b.udc
  last : (b.udc.req r).ep0InLastLength.toNat = min 64 (bs.length - 64 * k)
  ram : b.ram = b₀.ram
  buf : b.buf r = b₀.buf r
  sent : b.ep0Sent = b₀.ep0Sent ++ (split 64 bs).take (k + 1)

theorem toNat_and_ff {n : UInt16} (h : n.toNat < 256) : (n.toUInt32 &&& 0xff).toNat = n.toNat := by
  rw [UInt32.toNat_and, UInt16.toNat_toUInt32, show (0xff : UInt32).toNat = 2 ^ 8 - 1 from rfl,
    Nat.and_two_pow_sub_one_eq_mod, Nat.mod_eq_of_lt h]

theorem rtsStartEp0Transfer_ep (u : Udc) (e : EpId) (r : ReqId) :
    (u.rtsStartEp0Transfer e r).ep = u.ep := by
  unfold Udc.rtsStartEp0Transfer
  split
  · rfl
  · rfl

theorem rtsStartEp0Transfer_req {u : Udc} {e : EpId} (h : (u.ep e).dirIn = true) (r : ReqId) :
    (u.rtsStartEp0Transfer e r).req r =
      { u.req r with ep0InLastLength := packetLength (u.req r) (u.ep e).maxpacket } := by
  unfold Udc.rtsStartEp0Transfer
  rw [if_pos h]
  dsimp only [emit]
  rw [setReq_req_self]

theorem packet_eq_readBytes {L : Nat} {actual : UInt32} {M : Nat} (hk : M * k ≤ L)
    (hact : actual.toNat = M * k) (ram : Memory) (a : UInt32) :
    packet M (readBytes ram a L) k = readBytes ram (a + actual) (min M (L - M * k)) := by
  rw [packet, take_drop_readBytes hk, ← hact, UInt32.ofNat_toNat]

theorem AtPacket.start (h : AtPacket b₀ r bs k b) (hdir : (b₀.udc.ep ep0).dirIn = true)
    (hmax : (b₀.udc.ep ep0).maxpacket = 0x40) (hbs : readBytes b₀.ram (b₀.buf r) bs.length = bs)
    (hL : bs.length ≤ 65535) (hk : 64 * k ≤ bs.length) (hcount : k < count 64 bs.length) :
    Sending b₀ r bs k (b.rtsStartEp0Transfer ep0 r) := by
  have hdir' : (b.udc.ep ep0).dirIn = true := by rw [h.ep]; exact hdir
  have hmax' : (b.udc.ep ep0).maxpacket.toNat = 64 := by rw [h.ep, hmax]; rfl
  have hreq := rtsStartEp0Transfer_req hdir' r
  have hlen : (b.nextLength ep0 r).toNat = min 64 (bs.length - 64 * k) :=
    h.progress.toNat_packetLength hL hk hmax'
  have hpacket : bytes (loadWords b.ram (b.bufferOf r) b.ep0Buf (wordCount (b.nextLength ep0 r)))
      ((b.nextLength ep0 r).toUInt32 &&& 0xff).toNat = packet 64 bs k := by
    rw [toNat_and_ff (by omega), bytes_loadWords (le_wordCount _), hlen, bufferOf, h.ram, h.buf]
    conv_rhs => rw [← hbs]
    exact (packet_eq_readBytes hk h.progress.actual _ _).symm
  refine ⟨?_, ⟨?_, ?_⟩, ?_, ?_, ?_, ?_⟩
  · rw [rtsStartEp0Transfer_udc, rtsStartEp0Transfer_ep, h.ep]
  · rw [rtsStartEp0Transfer_udc, hreq]
    exact h.progress.length
  · rw [rtsStartEp0Transfer_udc, hreq]
    exact h.progress.actual
  · rw [rtsStartEp0Transfer_udc, hreq]
    exact hlen
  · unfold rtsStartEp0Transfer
    rw [if_pos hdir']
    exact h.ram
  · unfold rtsStartEp0Transfer
    rw [if_pos hdir']
    exact h.buf
  · unfold rtsStartEp0Transfer
    rw [if_pos hdir']
    dsimp only
    rw [hpacket, h.sent, List.append_assoc, take_split (Nat.le_of_lt hcount), take_split hcount,
      List.range_succ, List.map_append]
    rfl

/-- An IN packet has been sent. -/
theorem Sending.advance (h : Sending b₀ r bs k b) (hdir : (b₀.udc.ep ep0).dirIn = true)
    (hL : bs.length ≤ 65535) (hk : 64 * k < bs.length) :
    (b.ep0Advance ep0 r).udc.ep ep0 = b₀.udc.ep ep0 ∧
      ((b.ep0Advance ep0 r).udc.req r).length.toNat = bs.length ∧
      ((b.ep0Advance ep0 r).udc.req r).actual.toNat = min (64 * (k + 1)) bs.length ∧
      (b.ep0Advance ep0 r).ram = b₀.ram ∧ (b.ep0Advance ep0 r).buf r = b₀.buf r ∧
      (b.ep0Advance ep0 r).ep0Sent = b.ep0Sent := by
  have hdir' : (b.udc.ep ep0).dirIn = true := by rw [h.ep]; exact hdir
  have hne : (b.udc.req r).length ≠ (b.udc.req r).actual :=
    h.progress.length_ne_actual hk
  have hudc : b.udc.ep0Advance ep0 r = (b.udc.setReq r fun q =>
      { q with actual := q.actual + (b.udc.req r).ep0InLastLength.toUInt32 }).emit
        (.ep0Advance r) := by
    unfold Udc.ep0Advance
    rw [if_pos hne, if_pos hdir']
  have hboard : b.ep0Advance ep0 r = { b with udc := b.udc.ep0Advance ep0 r } := by
    unfold ep0Advance
    rw [if_neg (by rw [hdir']; simp)]
  have hreq : (b.udc.ep0Advance ep0 r).req r =
      { b.udc.req r with
        actual := (b.udc.req r).actual + (b.udc.req r).ep0InLastLength.toUInt32 } := by
    rw [hudc]
    dsimp only [emit]
    rw [setReq_req_self]
  rw [hboard]
  refine ⟨?_, ?_, ?_, h.ram, h.buf, rfl⟩
  · dsimp only
    rw [hudc]
    exact h.ep
  · dsimp only
    rw [hreq]
    exact h.progress.length
  · dsimp only
    rw [hreq]
    exact h.progress.toNat_actual_add hL (Nat.le_of_lt hk) h.last

theorem Sending.next (h : Sending b₀ r bs k b) (hstage : Stage r true b₀)
    (hbs : readBytes b₀.ram (b₀.buf r) bs.length = bs) (hL : bs.length ≤ 65535)
    (hk : k + 1 < count 64 bs.length) :
    (ep0Irq complete b ()).1 = none ∧ Sending b₀ r bs (k + 1) (ep0Irq complete b ()).2 := by
  have hlt := mul_succ_lt_of_lt_count hk
  obtain ⟨hep, hlen, hact, hram, hbuf, hsent⟩ := h.advance hstage.dirIn hL (by omega)
  obtain ⟨l, hhead⟩ := hstage.head
  have hdone : ¬ (b.ep0Advance ep0 r).udc.packetsDone ep0 r = true := by
    rw [packetsDone_iff (M := 64) (by rw [hep, hstage.maxpacket]; rfl) hlen hact]
    omega
  unfold ep0Irq rtsEp0TransferProcess
  rw [h.ep, hhead]
  dsimp only
  rw [if_neg hdone]
  refine ⟨rfl, AtPacket.start ⟨hep, ⟨hlen, ?_⟩, hram, hbuf, hsent.trans h.sent⟩ hstage.dirIn
    hstage.maxpacket hbs hL (Nat.le_of_lt hlt) hk⟩
  rw [hact, Nat.min_eq_left (Nat.le_of_lt hlt)]

theorem Sending.last_irq (h : Sending b₀ r bs k b) (hstage : Stage r true b₀)
    (hpos : 0 < bs.length) (hL : bs.length ≤ 65535) (hk : k + 1 = count 64 bs.length) :
    ∃ c : Board, (ep0Irq complete b ()).1 = some ⟨ep0, r, 0, c⟩ ∧
      (c.udc.req r).actual.toNat = bs.length ∧ c.ep0Sent = b₀.ep0Sent ++ split 64 bs := by
  have hle : bs.length ≤ 64 * (k + 1) := hk ▸ le_mul_count (by decide)
  obtain ⟨hep, hlen, hact, -, -, hsent⟩ :=
    h.advance hstage.dirIn hL (mul_lt_of_lt_count hpos (by omega))
  obtain ⟨l, hhead⟩ := hstage.head
  have hdone : (b.ep0Advance ep0 r).udc.packetsDone ep0 r = true :=
    (packetsDone_iff (M := 64) (by rw [hep, hstage.maxpacket]; rfl) hlen hact).mpr hle
  refine ⟨b.ep0Advance ep0 r, ?_, ?_, ?_⟩
  · unfold ep0Irq rtsEp0TransferProcess
    rw [h.ep, hhead]
    dsimp only
    rw [if_pos hdone]
  · rw [hact, Nat.min_eq_right hle]
  · rw [hsent, h.sent, List.take_of_length_le (by rw [length_split, hk])]

theorem Stage.sends_split (complete : Complete) (hstage : Stage r true b)
    (hpos : 1 ≤ (b.udc.req r).length.toNat) (hL : (b.udc.req r).length.toNat ≤ 65535) :
    (b.rtsEp0Queue complete ep0 r).1 = none ∧
      Sends (ep0Irq complete) ep0Sent ep0 r b.ep0Sent
        (split 64 (readBytes b.ram (b.buf r) (b.udc.req r).length.toNat))
        (b.rtsEp0Queue complete ep0 r).2 := by
  generalize hbs : readBytes b.ram (b.buf r) (b.udc.req r).length.toNat = bs
  have hlen : bs.length = (b.udc.req r).length.toNat := by rw [← hbs, length_readBytes]
  have hbs' : readBytes b.ram (b.buf r) bs.length = bs := by rw [hlen, hbs]
  have hne : (b.udc.req r).length ≠ 0 := by
    intro h
    rw [h] at hpos
    exact absurd hpos (by decide)
  have hqueue : b.rtsEp0Queue complete ep0 r = (none, b.rtsStartEp0Transfer ep0 r) := if_neg hne
  have hactual : (b.udc.req r).actual.toNat = 64 * 0 := by rw [hstage.actual]; rfl
  have hstart : AtPacket b r bs 0 b :=
    ⟨rfl, ⟨hlen.symm, hactual⟩, rfl, rfl, (List.append_nil _).symm⟩
  have hsending := hstart.start hstage.dirIn hstage.maxpacket hbs' (by omega) (Nat.zero_le _)
    (count_pos _ _)
  rw [hqueue]
  refine ⟨rfl, Sends.of_step (P := Sending b r bs) ?_ hsending (fun k c h => h.sent) ?_ ?_⟩
  · rw [length_split]
    exact count_pos _ _
  · intro k c h hk
    exact h.next hstage hbs' (by omega) (length_split ▸ hk)
  · intro k c h hk
    rw [flatten_split (by decide)]
    exact h.last_irq hstage (by omega) (by omega) (length_split ▸ hk)

/-- **The IN data stage.**  A request of 1 to 65535 bytes leaves as packets that are together its
buffer, all but the last of 64 bytes; the interrupt for the last one completes it. -/
theorem ep0In_sends (complete : Complete) {b : Board} {r : ReqId} (hstage : Stage r true b)
    (hpos : 1 ≤ (b.udc.req r).length.toNat) (hL : (b.udc.req r).length.toNat ≤ 65535) :
    (b.rtsEp0Queue complete ep0 r).1 = none ∧
      ∃ ps, ps.flatten = readBytes b.ram (b.buf r) (b.udc.req r).length.toNat ∧
        (∀ p ∈ ps.dropLast, p.length = 64) ∧
        Sends (ep0Irq complete) ep0Sent ep0 r b.ep0Sent ps (b.rtsEp0Queue complete ep0 r).2 := by
  obtain ⟨hnone, hsends⟩ := hstage.sends_split complete hpos hL
  exact ⟨hnone, _, flatten_split (by decide), fun p => length_of_mem_dropLast, hsends⟩

/-! ## OUT packets -/

/-- The interrupt for a packet from the host, with the words that the FIFO then holds. -/
def ep0OutIrq (complete : Complete) (b : Board) (words : Nat → UInt32) : Option Done × Board :=
  { b with ep0Buf := words }.rtsEp0TransferProcess complete ep0

/-- The FIFO holds the packets one after the other; what it holds behind a packet is anything. -/
structure Holding (ps : List (List UInt8)) (ws : List (Nat → UInt32)) : Prop where
  length : ws.length = ps.length
  bytes : ∀ k (hp : k < ps.length) (hw : k < ws.length), bytes ws[k] ps[k].length = ps[k]

/-- The transfer of `L` bytes from the host, with the packets before `k` stored. -/
structure Receiving (b₀ : Board) (r : ReqId) (L : Nat) (ps : List (List UInt8)) (k : Nat)
    (b : Board) : Prop where
  ep : b.udc.ep ep0 = b₀.udc.ep ep0
  progress : Progress r 64 L k b.udc
  buf : b.buf r = b₀.buf r
  stored : readBytes b.ram (b₀.buf r) (64 * k) = (ps.take k).flatten
  off : SameOff (b₀.buf r) (64 * k) b₀.ram b.ram

theorem rtsStartEp0Transfer_out {u : Udc} {e : EpId} (h : (u.ep e).dirIn = false) (r : ReqId) :
    u.rtsStartEp0Transfer e r = u.emit (.ep0Out r) := by
  unfold Udc.rtsStartEp0Transfer
  rw [if_neg (by rw [h]; decide)]

/-- An OUT packet has been stored. -/
theorem Receiving.advance {L : Nat} {ps : List (List UInt8)} (h : Receiving b₀ r L ps k b)
    (hstage : Stage r false b₀) (hL : L ≤ 65535) (hk : 64 * k < L) :
    (b.ep0Advance ep0 r).udc.ep ep0 = b₀.udc.ep ep0 ∧
      ((b.ep0Advance ep0 r).udc.req r).length.toNat = L ∧
      ((b.ep0Advance ep0 r).udc.req r).actual.toNat = min (64 * (k + 1)) L ∧
      (b.ep0Advance ep0 r).buf r = b₀.buf r ∧
      (b.ep0Advance ep0 r).ram = storeWords b.ep0Buf (b₀.buf r + UInt32.ofNat (64 * k)) b.ram
        ((min 64 (L - 64 * k) - 1) / 4 + 1) := by
  have hdir : (b.udc.ep ep0).dirIn = false := by rw [h.ep]; exact hstage.dirIn
  have hmax : (b.udc.ep ep0).maxpacket.toNat = 64 := by rw [h.ep, hstage.maxpacket]; rfl
  have hne : (b.udc.req r).length ≠ (b.udc.req r).actual :=
    h.progress.length_ne_actual hk
  have hlen : (b.nextLength ep0 r).toNat = min 64 (L - 64 * k) :=
    h.progress.toNat_packetLength hL (Nat.le_of_lt hk) hmax
  have hudc : b.udc.ep0Advance ep0 r = (b.udc.setReq r fun q =>
      { q with actual := q.actual + (b.nextLength ep0 r).toUInt32 }).emit (.ep0Advance r) := by
    unfold Udc.ep0Advance
    rw [if_pos hne, if_neg (by rw [hdir]; decide)]
    rfl
  have hreq : (b.udc.ep0Advance ep0 r).req r =
      { b.udc.req r with actual := (b.udc.req r).actual + (b.nextLength ep0 r).toUInt32 } := by
    rw [hudc]
    dsimp only [emit]
    rw [setReq_req_self]
  have hram : (b.ep0Advance ep0 r).ram =
      storeWords b.ep0Buf (b.bufferOf r) b.ram (wordCount (b.nextLength ep0 r)) := by
    unfold ep0Advance
    rw [if_pos ⟨hne, hdir⟩]
  have hbuf : (b.ep0Advance ep0 r).buf = b.buf := by
    unfold ep0Advance
    split
    · rfl
    · rfl
  have hplace : b.bufferOf r = b₀.buf r + UInt32.ofNat (64 * k) := by
    rw [bufferOf, h.buf, ← h.progress.actual, UInt32.ofNat_toNat]
  refine ⟨?_, ?_, ?_, ?_, ?_⟩
  · rw [ep0Advance_udc, hudc]
    exact h.ep
  · rw [ep0Advance_udc, hreq]
    exact h.progress.length
  · rw [ep0Advance_udc, hreq]
    exact h.progress.toNat_actual_add hL (Nat.le_of_lt hk) hlen
  · rw [hbuf, h.buf]
  · rw [hram, hplace, wordCount_eq (by omega), hlen]

variable {ps : List (List UInt8)} {ws : List (Nat → UInt32)} {words : Nat → UInt32}

theorem Receiving.stored_advance (h : Receiving b₀ r ps.flatten.length ps k b)
    (hstage : Stage r false b₀) (hL : ps.flatten.length ≤ 65535) (hps : Full 64 ps)
    (hk : k < ps.length) (hbytes : bytes b.ep0Buf ps[k].length = ps[k]) :
    readBytes (b.ep0Advance ep0 r).ram (b₀.buf r) (64 * k + ps[k].length) =
      (ps.take (k + 1)).flatten := by
  obtain ⟨hlt, hlen, -⟩ := hps.length_eq hk
  obtain ⟨-, -, -, -, hram⟩ := h.advance hstage hL hlt
  rw [hram, readBytes_storeWords_add (by omega) (by omega), h.stored, hbytes, List.take_add_one,
    List.getElem?_eq_getElem hk, List.flatten_append]
  simp

/-- A packet that is not the last is received. -/
theorem Receiving.next (h : Receiving b₀ r ps.flatten.length ps k b)
    (hstage : Stage r false b₀) (hL : ps.flatten.length ≤ 65535) (hps : Full 64 ps)
    (hk : k + 1 < ps.length) (hbytes : bytes words ps[k].length = ps[k]) :
    (ep0OutIrq complete b words).1 = none ∧
      Receiving b₀ r ps.flatten.length ps (k + 1) (ep0OutIrq complete b words).2 := by
  obtain ⟨hlt, hlen, hmore⟩ := hps.length_eq (Nat.lt_of_succ_lt hk)
  have h' : Receiving b₀ r ps.flatten.length ps k { b with ep0Buf := words } :=
    ⟨h.ep, h.progress, h.buf, h.stored, h.off⟩
  obtain ⟨hep, hreqlen, hact, hbuf, hram⟩ := h'.advance hstage hL hlt
  have hstored := h'.stored_advance hstage hL hps (Nat.lt_of_succ_lt hk) hbytes
  obtain ⟨l, hhead⟩ := hstage.head
  have hdone : ¬ (Board.ep0Advance { b with ep0Buf := words } ep0 r).udc.packetsDone ep0 r =
      true := by
    rw [packetsDone_iff (M := 64) (by rw [hep, hstage.maxpacket]; rfl) hreqlen hact]
    omega
  have hfull : ps[k].length = 64 := hps.length_getElem hk
  rw [hfull, ← Nat.mul_succ] at hstored
  unfold ep0OutIrq rtsEp0TransferProcess
  dsimp only
  rw [h.ep, hhead]
  dsimp only
  rw [if_neg hdone]
  generalize Board.ep0Advance { b with ep0Buf := words } ep0 r = c at *
  have hdir : (c.udc.ep ep0).dirIn = false := by rw [hep]; exact hstage.dirIn
  have hstart : c.rtsStartEp0Transfer ep0 r = { c with udc := c.udc.emit (.ep0Out r) } := by
    unfold rtsStartEp0Transfer
    rw [if_neg (by rw [hdir]; decide), rtsStartEp0Transfer_out hdir]
  rw [hstart]
  refine ⟨rfl, hep, ⟨hreqlen, ?_⟩, hbuf, hstored, ?_⟩
  · exact hact.trans (by omega)
  · obtain ⟨n, hn⟩ : ∃ n, n = (min 64 (ps.flatten.length - 64 * k) - 1) / 4 + 1 := ⟨_, rfl⟩
    have hnew : SameOff (b₀.buf r) (64 * k + 4 * n) b.ram
        (storeWords words (b₀.buf r + UInt32.ofNat (64 * k)) b.ram n) :=
      sameOff_storeWords_add (by omega)
    rw [hn, ← hram] at hnew
    refine SameOff.trans (h.off.mono fun x hx => ?_) (hnew.mono fun x hx => ?_)
    · omega
    · omega

variable (complete) in
theorem Receiving.last_irq (h : Receiving b₀ r ps.flatten.length ps k b)
    (hstage : Stage r false b₀) (hL : ps.flatten.length ≤ 65535) (hps : Full 64 ps)
    (hk : k + 1 = ps.length) (hk' : k < ps.length) (hbytes : bytes words ps[k].length = ps[k]) :
    ∃ c : Board, (ep0OutIrq complete b words).1 = some ⟨ep0, r, 0, c⟩ ∧
      (c.udc.req r).actual.toNat = ps.flatten.length ∧
      readBytes c.ram (b₀.buf r) ps.flatten.length = ps.flatten ∧
      c.ram = storeWords words (b₀.buf r + UInt32.ofNat (64 * k)) b.ram
        ((ps.flatten.length - 64 * k - 1) / 4 + 1) := by
  obtain ⟨hlt, hlen, hmore⟩ := hps.length_eq hk'
  have h' : Receiving b₀ r ps.flatten.length ps k { b with ep0Buf := words } :=
    ⟨h.ep, h.progress, h.buf, h.stored, h.off⟩
  obtain ⟨hep, hreqlen, hact, -, hram⟩ := h'.advance hstage hL hlt
  have hstored := h'.stored_advance hstage hL hps hk' hbytes
  obtain ⟨l, hhead⟩ := hstage.head
  have hle : ps.flatten.length ≤ 64 * (k + 1) := hmore.mpr hk
  have hdone : (Board.ep0Advance { b with ep0Buf := words } ep0 r).udc.packetsDone ep0 r = true :=
    (packetsDone_iff (M := 64) (by rw [hep, hstage.maxpacket]; rfl) hreqlen hact).mpr hle
  rw [hk, List.take_length, show 64 * k + ps[k].length = ps.flatten.length by omega] at hstored
  rw [show min 64 (ps.flatten.length - 64 * k) = ps.flatten.length - 64 * k by omega] at hram
  refine ⟨_, ?_, hact.trans (Nat.min_eq_right hle), hstored, hram⟩
  unfold ep0OutIrq rtsEp0TransferProcess
  dsimp only
  rw [h.ep, hhead]
  dsimp only
  rw [if_pos hdone]

/-- The bytes behind the last packet in its last word of the FIFO are those that lie behind the
buffer in memory. -/
def StrayAgrees (b : Board) (r : ReqId) (ps : List (List UInt8)) (ws : List (Nat → UInt32)) :
    Prop :=
  ∀ w ∈ ws.getLast?, ∀ i, ps.flatten.length ≤ i → i < 4 * ((ps.flatten.length + 3) / 4) →
    byteAt w (i - 64 * (ps.length - 1)) = b.ram (b.buf r + UInt32.ofNat i)

/-- **What an OUT data stage is for.**  The packets are stored in the buffer one after the other,
nothing else in memory changes, and the interrupt for the last packet, and no other, completes the
request with everything accounted for. -/
structure Receives (complete : Complete) (r : ReqId) (ps : List (List UInt8))
    (ws : List (Nat → UInt32)) (b : Board) : Prop where
  silent : ∀ k < ps.length,
    (collect (ep0OutIrq complete) (b.rtsEp0Queue complete ep0 r).2 (ws.take k)).1 = []
  completes : ∃ c : Board,
    (collect (ep0OutIrq complete) (b.rtsEp0Queue complete ep0 r).2 ws).1 = [⟨ep0, r, 0, c⟩] ∧
      (c.udc.req r).actual.toNat = ps.flatten.length ∧
      readBytes c.ram (b.buf r) ps.flatten.length = ps.flatten ∧
      SameOff (b.buf r) ps.flatten.length b.ram c.ram

/-- The interrupts of the packets so far have received these packets. -/
theorem receiving_run (complete : Complete) (hstage : Stage r false b) (hps : Full 64 ps)
    (hlen : (b.udc.req r).length.toNat = ps.flatten.length) (hL : ps.flatten.length ≤ 65535)
    (hpos : 0 < ps.length) (hws : Holding ps ws) (hk : k < ps.length) :
    (collect (ep0OutIrq complete) (b.rtsEp0Queue complete ep0 r).2 (ws.take k)).1 = [] ∧
      Receiving b r ps.flatten.length ps k
        (collect (ep0OutIrq complete) (b.rtsEp0Queue complete ep0 r).2 (ws.take k)).2 := by
  have hne : (b.udc.req r).length ≠ 0 := by
    intro h
    obtain ⟨hlt, -, -⟩ := hps.length_eq hpos
    rw [h] at hlen
    exact absurd hlen (by rw [show (0 : UInt32).toNat = 0 from rfl]; omega)
  have hstart : (b.rtsEp0Queue complete ep0 r).2 = { b with udc := b.udc.emit (.ep0Out r) } := by
    unfold rtsEp0Queue rtsStartEp0Transfer
    rw [if_neg hne]
    dsimp only
    rw [hstage.dirIn, if_neg Bool.false_ne_true, rtsStartEp0Transfer_out hstage.dirIn]
  have hactual : (b.udc.req r).actual.toNat = 64 * 0 := by rw [hstage.actual]; rfl
  have hzero : Receiving b r ps.flatten.length ps 0 (b.rtsEp0Queue complete ep0 r).2 := by
    rw [hstart]
    exact ⟨rfl, ⟨hlen, hactual⟩, rfl, rfl, SameOff.refl _ _ _⟩
  have hwlen := hws.length
  have hrun : (collect (ep0OutIrq complete) (b.rtsEp0Queue complete ep0 r).2 (ws.take k)).1 = [] ∧
      Receiving b r ps.flatten.length ps (ws.take k).length
        (collect (ep0OutIrq complete) (b.rtsEp0Queue complete ep0 r).2 (ws.take k)).2 :=
    collect_silent hzero fun i hi c hc => by
      rw [List.length_take] at hi
      rw [List.getElem_take]
      exact hc.next hstage hL hps (by omega) (hws.bytes i (by omega) (by omega))
  rwa [List.length_take, Nat.min_eq_left (by omega)] at hrun

theorem sameOff_iff_strayAgrees {c : Board} {w : Nat → UInt32} (hps : Full 64 ps)
    (hL : ps.flatten.length ≤ 65535) (hk : k + 1 = ps.length) (hw : ws.getLast? = some w)
    (hoff : SameOff (b₀.buf r) (64 * k) b₀.ram b.ram)
    (hram : c.ram = storeWords w (b₀.buf r + UInt32.ofNat (64 * k)) b.ram
      ((ps.flatten.length - 64 * k - 1) / 4 + 1)) :
    SameOff (b₀.buf r) ps.flatten.length b₀.ram c.ram ↔ StrayAgrees b₀ r ps ws := by
  obtain ⟨hlt, hlen, hmore⟩ := hps.length_eq (show k < ps.length by omega)
  have hend : 64 * k + 4 * ((ps.flatten.length - 64 * k - 1) / 4 + 1) =
      4 * ((ps.flatten.length + 3) / 4) := by
    omega
  have hpre : ps.length - 1 = k := by omega
  obtain ⟨n, hn⟩ : ∃ n, n = (ps.flatten.length - 64 * k - 1) / 4 + 1 := ⟨_, rfl⟩
  have happly : ∀ x, storeWords w (b₀.buf r + UInt32.ofNat (64 * k)) b.ram n x =
      if 64 * k ≤ (x - b₀.buf r).toNat ∧ (x - b₀.buf r).toNat < 64 * k + 4 * n then
        byteAt w ((x - b₀.buf r).toNat - 64 * k)
      else b.ram x :=
    storeWords_add_apply (by omega)
  rw [hn] at happly
  constructor
  · intro h w' hw' i hi hi'
    obtain rfl : w = w' := Option.some.inj (hw.symm.trans hw')
    have hat := toNat_add_ofNat_sub (a := b₀.buf r) (i := i) (by omega)
    have hstay := h (b₀.buf r + UInt32.ofNat i) (by rw [hat]; omega)
    rw [hram, happly, hat, if_pos ⟨by omega, by omega⟩] at hstay
    rw [hpre]
    exact hstay
  · intro h x hx
    rw [hram, happly]
    by_cases hin : (x - b₀.buf r).toNat < 64 * k + 4 * ((ps.flatten.length - 64 * k - 1) / 4 + 1)
    · have hstray := h w hw (x - b₀.buf r).toNat (by omega) (by omega)
      rw [UInt32.ofNat_toNat, UInt32.add_comm, UInt32.sub_add_cancel, hpre] at hstray
      rw [if_pos ⟨by omega, hin⟩, hstray]
    · rw [if_neg fun h => hin h.2]
      exact hoff x (by omega)

/-- **The OUT data stage** stores the packets and completes the request; it leaves the memory behind
the buffer alone if and only if the length is a multiple of four, or what the FIFO holds behind the
last packet happens to be what lies there. -/
theorem ep0Out_receives_iff (complete : Complete) {b : Board} {r : ReqId} {ps : List (List UInt8)}
    {ws : List (Nat → UInt32)} (hstage : Stage r false b) (hps : Full 64 ps) (hws : Holding ps ws)
    (hlen : (b.udc.req r).length.toNat = ps.flatten.length) (hpos : 1 ≤ ps.flatten.length)
    (hL : ps.flatten.length ≤ 65535) :
    Receives complete r ps ws b ↔ ps.flatten.length % 4 = 0 ∨ StrayAgrees b r ps ws := by
  have hpslen : 0 < ps.length := by
    refine List.length_pos_of_ne_nil fun h => ?_
    rw [h] at hpos
    exact absurd hpos (by decide)
  obtain ⟨k, hk⟩ : ∃ k, k + 1 = ps.length := ⟨ps.length - 1, by omega⟩
  have hwlen := hws.length
  have hklt : k < ws.length := by omega
  obtain ⟨hsilent, hbefore⟩ :=
    receiving_run complete hstage hps hlen hL hpslen hws (show k < ps.length by omega)
  obtain ⟨c, hcall, hactual, hstored, hram⟩ := 
    hbefore.last_irq complete hstage hL hps hk (by omega) (hws.bytes k _ hklt)
  have hlast : ws.getLast? = some ws[k] := by
    rw [List.getLast?_eq_getElem?, show ws.length - 1 = k by omega,
      List.getElem?_eq_getElem hklt]
  have hcollect : (collect (ep0OutIrq complete) (b.rtsEp0Queue complete ep0 r).2 ws).1 =
      [⟨ep0, r, 0, c⟩] := by
    have hsplit : ws = ws.take k ++ [ws[k]] := by
      rw [List.take_append_getElem, hk, ← hwlen, List.take_length]
    conv_lhs => rw [hsplit]
    rw [collect_concat, hsilent, hcall]
    rfl
  have hoff := sameOff_iff_strayAgrees hps hL hk hlast hbefore.off hram
  have hmul : ps.flatten.length % 4 = 0 → StrayAgrees b r ps ws := by
    intro h w _ i hi hi'
    omega
  rw [show (ps.flatten.length % 4 = 0 ∨ StrayAgrees b r ps ws) ↔ StrayAgrees b r ps ws from
    ⟨fun h => h.elim hmul id, .inr⟩, ← hoff]
  constructor
  · intro h
    obtain ⟨d, hd, -, -, hsame⟩ := h.completes
    rw [hcollect] at hd
    injection hd with hd
    injection hd with _ _ _ hd
    exact hd ▸ hsame
  · intro h
    refine ⟨fun i hi => (receiving_run complete hstage hps hlen hL hpslen hws hi).1, c, hcollect,
      hactual, hstored, h⟩

/-! ## Two requests -/

/-- Request 1 with `length` bytes at the address 0, queued on ep0, over a memory of zeros. -/
def queuedOnEp0 (dirIn : Bool) (length : UInt32) : Board where
  udc := (addressed.setEp ep0 fun x => { x with queue := [1], dirIn := dirIn }).setReq 1 fun q =>
    { q with length := length }
  ram _ := 0
  buf _ := 0
  ep0Buf _ := 0
  ep0Bc := 0
  ep0Sent := []
  intrBuf _ _ := 0
  intrBc _ := 0
  intrSent _ := []

theorem stage_queuedOnEp0 (dirIn : Bool) (length : UInt32) :
    Stage 1 dirIn (queuedOnEp0 dirIn length) :=
  ⟨⟨[], rfl⟩, rfl, rfl, rfl⟩

/-- A request of 70 bytes goes as two packets. -/
theorem ep0In_sends_seventy : ∃ ps,
    ps.flatten = readBytes (queuedOnEp0 true 70).ram 0 70 ∧ (∀ p ∈ ps.dropLast, p.length = 64) ∧
      Sends (ep0Irq fun _ _ b => b) ep0Sent ep0 1 [] ps
        ((queuedOnEp0 true 70).rtsEp0Queue (fun _ _ b => b) ep0 1).2 :=
  (ep0In_sends (fun _ _ b => b) (stage_queuedOnEp0 true 70) (by decide) (by decide)).2

/-- One byte from the host, in a FIFO word that holds three others behind it. -/
def oneByte : List (List UInt8) := [[0x11]]

def oneByteWords : List (Nat → UInt32) := [fun _ => 0xaabbcc11]

theorem full_oneByte : Full 64 oneByte :=
  ⟨nofun, by decide, by decide⟩

theorem holding_oneByte : Holding oneByte oneByteWords := by
  refine ⟨rfl, fun k hp hw => ?_⟩
  obtain rfl : k = 0 := Nat.lt_one_iff.mp hp
  show bytes (fun _ => 0xaabbcc11) 1 = [0x11]
  decide

theorem ep0Out_receives_oneByte :
    Receives (fun _ _ b => b) 1 oneByte oneByteWords (queuedOnEp0 false 1) ↔
      oneByte.flatten.length % 4 = 0 ∨
        StrayAgrees (queuedOnEp0 false 1) 1 oneByte oneByteWords :=
  ep0Out_receives_iff _ (stage_queuedOnEp0 false 1) full_oneByte holding_oneByte rfl (by decide)
    (by decide)

/-- The three other bytes end up behind the buffer. -/
theorem not_ep0Out_receives :
    ¬ ∀ (complete : Complete) (b : Board) (r : ReqId) (ps : List (List UInt8))
      (ws : List (Nat → UInt32)), Stage r false b → Full 64 ps → Holding ps ws →
      (b.udc.req r).length.toNat = ps.flatten.length → 1 ≤ ps.flatten.length →
      ps.flatten.length ≤ 65535 → Receives complete r ps ws b := by
  intro h
  obtain ⟨c, hc, -, -, hoff⟩ := (h (fun _ _ b => b) _ 1 oneByte oneByteWords
    (stage_queuedOnEp0 false 1) full_oneByte holding_oneByte rfl (by decide) (by decide)).completes
  have hstray : c.ram 1 = 0xcc := by
    have hrams := congrArg (List.map fun d => d.board.ram 1) hc
    exact (List.cons.inj hrams).1.symm
  have hzero : c.ram 1 = 0 := hoff 1 (by decide)
  rw [hstray] at hzero
  exact absurd hzero (by decide)

end RealtekIpcam.Board
