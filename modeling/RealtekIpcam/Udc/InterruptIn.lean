import RealtekIpcam.Udc.DataStage

/-!
# Interrupt-IN transfers

The interrupt endpoints 7 to 12 send a request as ep0 does, a packet for each transmit interrupt,
and their interrupt starts the next request of the queue when one is complete.

The handler `rts_usb_intr_in_process` passes over a request of length zero.  Such a request is
started, its empty packet goes out, and no interrupt ever completes it.
-/

namespace RealtekIpcam.Board

open Udc PacketBuffer Packets Ram Runs

variable {complete : Complete} {b b₀ : Board} {e : EpId} {r : ReqId} {M : Nat} {bs : List UInt8}
  {k : Nat}

/-- A request at the head of the queue of an enabled interrupt endpoint with packets of `M` bytes,
with nothing sent so far. -/
structure IntrReady (e : EpId) (r : ReqId) (M : Nat) (b : Board) : Prop where
  head : ∃ l, (b.udc.ep e).queue = r :: l
  usesIntr : usesIntr (b.udc.ep e) = true
  epEnable : (b.udc.ep e).epEnable = true
  maxpacket : (b.udc.ep e).maxpacket.toNat = M
  actual : (b.udc.req r).actual = 0

theorem IntrReady.dirIn (h : IntrReady e r M b) : (b.udc.ep e).dirIn = true :=
  (Bool.and_eq_true_iff.mp h.usesIntr).2

/-- The transmit interrupt of the endpoint. -/
def intrIrq (complete : Complete) (e : EpId) (b : Board) (_ : Unit) : Option Done × Board :=
  b.rtsUsbIntrepIrq complete true e

/-- The packets handed over on the endpoint. -/
def sentOn (e : EpId) (b₀ b : Board) : List (List UInt8) := b.intrSent (b₀.udc.ep e).epnum

/-- The transfer of `bs`, which lies in the buffer of `r`, with the packets before `k` handed
over. -/
structure AtIntrPacket (e : EpId) (b₀ : Board) (r : ReqId) (M : Nat) (bs : List UInt8) (k : Nat)
    (b : Board) : Prop where
  ep : b.udc.ep e = b₀.udc.ep e
  progress : Progress r M bs.length k b.udc
  ram : b.ram = b₀.ram
  buf : b.buf r = b₀.buf r
  sent : sentOn e b₀ b = sentOn e b₀ b₀ ++ (split M bs).take k

/-- The transfer of `bs` with the packet `k` in the endpoint's buffer. -/
structure SendingIntr (e : EpId) (b₀ : Board) (r : ReqId) (M : Nat) (bs : List UInt8) (k : Nat)
    (b : Board) : Prop where
  ep : b.udc.ep e = b₀.udc.ep e
  progress : Progress r M bs.length k b.udc
  last : (b.udc.req r).intrInLastLength.toNat = min M (bs.length - M * k)
  ram : b.ram = b₀.ram
  buf : b.buf r = b₀.buf r
  sent : sentOn e b₀ b = sentOn e b₀ b₀ ++ (split M bs).take (k + 1)

theorem rtsStartIntrTransfer_ep (u : Udc) (e : EpId) (r : ReqId) :
    (u.rtsStartIntrTransfer e r).ep = u.ep := by
  unfold Udc.rtsStartIntrTransfer
  split
  · rfl
  · rfl

theorem rtsStartIntrTransfer_req {u : Udc} {e : EpId} (h : (u.ep e).dirIn = true) (r : ReqId) :
    (u.rtsStartIntrTransfer e r).req r =
      { u.req r with intrInLastLength := packetLength (u.req r) (u.ep e).maxpacket } := by
  unfold Udc.rtsStartIntrTransfer
  rw [if_pos h]
  dsimp only [emit, startXfer]
  rw [setReq_req_self]

theorem AtIntrPacket.start (h : AtIntrPacket e b₀ r M bs k b) (hready : IntrReady e r M b₀)
    (hbs : readBytes b₀.ram (b₀.buf r) bs.length = bs) (hL : bs.length ≤ 65535)
    (hk : M * k ≤ bs.length) (hcount : k < count M bs.length) :
    SendingIntr e b₀ r M bs k (b.rtsStartIntrTransfer e r) := by
  have hdir : (b.udc.ep e).dirIn = true := by rw [h.ep]; exact hready.dirIn
  have hmax : (b.udc.ep e).maxpacket.toNat = M := by rw [h.ep, hready.maxpacket]
  have hreq := rtsStartIntrTransfer_req hdir r
  have hlen : (b.nextLength e r).toNat = min M (bs.length - M * k) :=
    h.progress.toNat_packetLength hL hk hmax
  have hpacket : bytes (loadWords b.ram (b.bufferOf r) (b.intrBuf (b.udc.ep e).epnum)
      (wordCount (b.nextLength e r))) (b.nextLength e r).toNat = packet M bs k := by
    rw [bytes_loadWords (le_wordCount _), hlen, bufferOf, h.ram, h.buf]
    conv_rhs => rw [← hbs]
    exact (packet_eq_readBytes hk h.progress.actual _ _).symm
  refine ⟨?_, ⟨?_, ?_⟩, ?_, ?_, ?_, ?_⟩
  · rw [rtsStartIntrTransfer_udc, rtsStartIntrTransfer_ep, h.ep]
  · rw [rtsStartIntrTransfer_udc, hreq]
    exact h.progress.length
  · rw [rtsStartIntrTransfer_udc, hreq]
    exact h.progress.actual
  · rw [rtsStartIntrTransfer_udc, hreq]
    exact hlen
  · unfold rtsStartIntrTransfer
    rw [if_pos hdir]
    exact h.ram
  · unfold rtsStartIntrTransfer
    rw [if_pos hdir]
    exact h.buf
  · have hsent : sentOn e b₀ (b.rtsStartIntrTransfer e r) =
        sentOn e b₀ b ++ [packet M bs k] := by
      unfold sentOn rtsStartIntrTransfer
      rw [if_pos hdir]
      dsimp only
      rw [hpacket, h.ep, Function.update_self]
    rw [hsent, h.sent, List.append_assoc, take_split (Nat.le_of_lt hcount), take_split hcount,
      List.range_succ, List.map_append]
    rfl

theorem SendingIntr.advance (h : SendingIntr e b₀ r M bs k b) (hready : IntrReady e r M b₀)
    (hL : bs.length ≤ 65535) (hk : M * k < bs.length) :
    (b.udc.intrAdvance e r).ep e = b₀.udc.ep e ∧
      ((b.udc.intrAdvance e r).req r).length.toNat = bs.length ∧
      ((b.udc.intrAdvance e r).req r).actual.toNat = min (M * (k + 1)) bs.length := by
  have hdir : (b.udc.ep e).dirIn = true := by rw [h.ep]; exact hready.dirIn
  have hne : (b.udc.req r).length ≠ (b.udc.req r).actual :=
    h.progress.length_ne_actual hk
  have hudc : b.udc.intrAdvance e r = b.udc.setReq r fun q =>
      { q with actual := q.actual + q.intrInLastLength.toUInt32 } := by
    unfold intrAdvance
    rw [if_pos ⟨hne, hdir⟩]
  have hreq : (b.udc.intrAdvance e r).req r = { b.udc.req r with
      actual := (b.udc.req r).actual + (b.udc.req r).intrInLastLength.toUInt32 } := by
    rw [hudc, setReq_req_self]
  refine ⟨?_, ?_, ?_⟩
  · rw [hudc]
    exact h.ep
  · rw [hreq]
    exact h.progress.length
  · rw [hreq]
    exact h.progress.toNat_actual_add hL (Nat.le_of_lt hk) h.last

/-! ## The interrupt -/

theorem IntrReady.irq_eq (hready : IntrReady e r M b₀) (hep : b.udc.ep e = b₀.udc.ep e) :
    intrIrq complete e b () =
      if (b.udc.req r).length ≠ 0 then b.rtsIntrTransferProcess complete e r else (none, b) := by
  obtain ⟨l, hhead⟩ := hready.head
  unfold intrIrq rtsUsbIntrepIrq rtsUsbIntrInProcess
  rw [hep, hready.epEnable, hhead]
  rfl

theorem SendingIntr.irq_eq (h : SendingIntr e b₀ r M bs k b) (hready : IntrReady e r M b₀)
    (hpos : 0 < bs.length) : intrIrq complete e b () = b.rtsIntrTransferProcess complete e r := by
  rw [hready.irq_eq h.ep, if_pos]
  intro hzero
  have hlen := h.progress.length
  rw [hzero] at hlen
  exact absurd hlen (Nat.ne_of_lt hpos)

theorem SendingIntr.next (h : SendingIntr e b₀ r M bs k b) (hready : IntrReady e r M b₀)
    (hbs : readBytes b₀.ram (b₀.buf r) bs.length = bs) (hL : bs.length ≤ 65535)
    (hk : k + 1 < count M bs.length) :
    (intrIrq complete e b ()).1 = none ∧
      SendingIntr e b₀ r M bs (k + 1) (intrIrq complete e b ()).2 := by
  have hlt := mul_succ_lt_of_lt_count hk
  have hpos : 0 < bs.length := Nat.zero_lt_of_lt hlt
  obtain ⟨hep, hlen, hact⟩ :=
    h.advance hready hL (Nat.lt_of_le_of_lt (Nat.mul_le_mul_left M (Nat.le_succ k)) hlt)
  have hdone : ¬ (b.udc.intrAdvance e r).packetsDone e r = true := by
    rw [packetsDone_iff (M := M) (by rw [hep, hready.maxpacket]) hlen hact]
    exact Nat.not_le.mpr hlt
  rw [h.irq_eq hready hpos]
  unfold rtsIntrTransferProcess
  dsimp only
  rw [if_neg hdone]
  refine ⟨rfl, AtIntrPacket.start ⟨hep, ⟨hlen, ?_⟩, h.ram, h.buf, h.sent⟩ hready hbs hL
    (Nat.le_of_lt hlt) hk⟩
  rw [hact, Nat.min_eq_left (Nat.le_of_lt hlt)]

variable (complete) in
theorem SendingIntr.last_irq (h : SendingIntr e b₀ r M bs k b) (hready : IntrReady e r M b₀)
    (hM : 0 < M) (hpos : 0 < bs.length) (hL : bs.length ≤ 65535)
    (hk : k + 1 = count M bs.length) :
    ∃ c : Board,
      intrIrq complete e b () =
        (some ⟨e, r, 0, c⟩, (c.rtsDone complete e r 0).rtsStartNextRequest e) ∧
      (c.udc.req r).actual.toNat = bs.length ∧ sentOn e b₀ c = sentOn e b₀ b₀ ++ split M bs := by
  have hle : bs.length ≤ M * (k + 1) := hk ▸ le_mul_count hM
  obtain ⟨hep, hlen, hact⟩ := h.advance hready hL (mul_lt_of_lt_count hpos (by omega))
  have hdone : (b.udc.intrAdvance e r).packetsDone e r = true :=
    (packetsDone_iff (M := M) (by rw [hep, hready.maxpacket]) hlen hact).mpr hle
  refine ⟨{ b with udc := b.udc.intrAdvance e r }, ?_, ?_, ?_⟩
  · rw [h.irq_eq hready hpos]
    unfold rtsIntrTransferProcess
    dsimp only
    rw [if_pos hdone]
  · exact hact.trans (Nat.min_eq_right hle)
  · show sentOn e b₀ b = _
    rw [h.sent, List.take_of_length_le (by rw [length_split, hk])]

/-! ## Whole transfers -/

/-- **What an interrupt-IN transfer is for.**  The packets sent are together the buffer, the
interrupt for the last one and no other completes the request, and when the completion callback has
returned the request that is then at the head of the queue is started. -/
def Transmits (complete : Complete) (e : EpId) (r : ReqId) (b : Board) : Prop :=
  ∃ ps, ps.flatten = readBytes b.ram (b.buf r) (b.udc.req r).length.toNat ∧
    Sends (intrIrq complete e) (sentOn e b) e r (sentOn e b b) ps (b.rtsStartIntrTransfer e r) ∧
    ∀ c, (collect (intrIrq complete e) (b.rtsStartIntrTransfer e r)
        (List.replicate ps.length ())).1 = [⟨e, r, 0, c⟩] →
      ∀ r' l, ((c.rtsDone complete e r 0).udc.ep e).queue = r' :: l →
        Udc.usesIntr ((c.rtsDone complete e r 0).udc.ep e) = true →
        (collect (intrIrq complete e) (b.rtsStartIntrTransfer e r)
          (List.replicate ps.length ())).2 =
            (c.rtsDone complete e r 0).rtsStartIntrTransfer e r'

theorem rtsStartNextRequest_of_head {r' : ReqId} {l : List ReqId}
    (hqueue : (b.udc.ep e).queue = r' :: l) (hintr : Udc.usesIntr (b.udc.ep e) = true) :
    b.rtsStartNextRequest e = b.rtsStartIntrTransfer e r' := by
  unfold rtsStartNextRequest
  rw [hqueue]
  dsimp only
  rw [if_pos hintr]

theorem IntrReady.start (hready : IntrReady e r M b) (hlen : bs.length = (b.udc.req r).length.toNat)
    (hbs : readBytes b.ram (b.buf r) bs.length = bs) (hL : bs.length ≤ 65535) :
    SendingIntr e b r M bs 0 (b.rtsStartIntrTransfer e r) := by
  have hactual : (b.udc.req r).actual.toNat = M * 0 := by rw [hready.actual]; rfl
  have hzero : AtIntrPacket e b r M bs 0 b :=
    ⟨rfl, ⟨hlen.symm, hactual⟩, rfl, rfl, (List.append_nil _).symm⟩
  exact hzero.start hready hbs hL (Nat.zero_le _) (count_pos _ _)

theorem IntrReady.transmits (complete : Complete) (hready : IntrReady e r M b) (hM : 0 < M)
    (hpos : 0 < (b.udc.req r).length.toNat) (hL : (b.udc.req r).length.toNat ≤ 65535) :
    Transmits complete e r b := by
  generalize hbs : readBytes b.ram (b.buf r) (b.udc.req r).length.toNat = bs
  have hlen : bs.length = (b.udc.req r).length.toNat := by rw [← hbs, length_readBytes]
  have hbs' : readBytes b.ram (b.buf r) bs.length = bs := by rw [hlen, hbs]
  have hsending := hready.start hlen hbs' (by omega)
  have hcount := count_pos M bs.length
  refine ⟨split M bs, by rw [flatten_split hM, hbs], ?_, ?_⟩
  · refine Sends.of_step (P := SendingIntr e b r M bs) (length_split ▸ hcount) hsending
      (fun k c h => h.sent) ?_ ?_
    · intro k c h hk
      exact h.next hready hbs' (by omega) (length_split ▸ hk)
    · intro k c h hk
      obtain ⟨d, hd, hrest⟩ :=
        h.last_irq complete hready hM (by omega) (by omega) (length_split ▸ hk)
      rw [flatten_split hM]
      exact ⟨d, by rw [hd], hrest⟩
  · intro c hc r' l hqueue hintr
    obtain ⟨n, hn⟩ : ∃ n, count M bs.length = n + 1 := ⟨count M bs.length - 1, by omega⟩
    have hrun :
        (collect (intrIrq complete e) (b.rtsStartIntrTransfer e r) (List.replicate n ())).1 = [] ∧
        SendingIntr e b r M bs (List.replicate n ()).length
          (collect (intrIrq complete e) (b.rtsStartIntrTransfer e r) (List.replicate n ())).2 :=
      collect_silent hsending fun i hi d hd =>
        hd.next hready hbs' (by omega) (by rw [List.length_replicate] at hi; omega)
    rw [List.length_replicate] at hrun
    obtain ⟨hout, hP⟩ := hrun
    obtain ⟨d, hd, -, -⟩ :=
      hP.last_irq complete hready hM (by omega) (by omega) hn.symm
    rw [length_split, hn, List.replicate_succ', collect_concat, hout, hd] at hc
    rw [length_split, hn, List.replicate_succ', collect_concat, hd]
    obtain rfl : d = c := by
      injection hc with hc
      injection hc
    exact rtsStartNextRequest_of_head hqueue hintr

theorem IntrReady.collect_zero (hready : IntrReady e r M b₀) {n : Nat}
    (hep : b.udc.ep e = b₀.udc.ep e) (hzero : (b.udc.req r).length = 0) :
    (collect (intrIrq complete e) b (List.replicate n ())).1 = [] := by
  have hirq : intrIrq complete e b () = (none, b) := by
    rw [hready.irq_eq hep, if_neg (not_not_intro hzero)]
  refine (collect_silent (P := fun _ c => c = b) rfl ?_).1
  intro k hk c hc
  rw [hc]
  exact ⟨congrArg Prod.fst hirq, congrArg Prod.snd hirq⟩

theorem IntrReady.not_transmits_of_empty (complete : Complete) (hready : IntrReady e r M b)
    (hzero : (b.udc.req r).length = 0) : ¬ Transmits complete e r b := by
  rintro ⟨ps, -, hsends, -⟩
  obtain ⟨c, hc, -⟩ := hsends.completes
  have hep : (b.rtsStartIntrTransfer e r).udc.ep e = b.udc.ep e := by
    rw [rtsStartIntrTransfer_udc, rtsStartIntrTransfer_ep]
  have hlen : ((b.rtsStartIntrTransfer e r).udc.req r).length = 0 := by
    rw [rtsStartIntrTransfer_udc, rtsStartIntrTransfer_req hready.dirIn]
    exact hzero
  rw [hready.collect_zero hep hlen] at hc
  exact absurd hc (List.cons_ne_nil _ _).symm

/-- **An interrupt-IN transfer** sends the buffer, completes the request and goes on with the queue
if and only if the request is not empty. -/
theorem transmits_iff (complete : Complete) {e : EpId} {r : ReqId} {M : Nat} {b : Board}
    (hready : IntrReady e r M b) (hM : 1 ≤ M) (hL : (b.udc.req r).length.toNat ≤ 65535) :
    Transmits complete e r b ↔ (b.udc.req r).length ≠ 0 := by
  constructor
  · exact fun h hzero => hready.not_transmits_of_empty complete hzero h
  · intro hne
    refine hready.transmits complete hM (Nat.pos_of_ne_zero fun h => hne ?_) hL
    exact UInt32.toNat_inj.mp h

/-- Requests 1 and 2 queued on the interrupt endpoint 7, the first with `length` bytes. -/
def queuedOnIntr (length : UInt32) : Board :=
  { queuedOnEp0 false 0 with
    udc := (addressed.setEp (.epIn 7) fun x =>
      { x with queue := [1, 2], epnum := 7, dirIn := true, epEnable := true }).setReq 1 fun q =>
        { q with length := length } }

theorem intrReady_queuedOnIntr (length : UInt32) :
    IntrReady (.epIn 7) 1 64 (queuedOnIntr length) :=
  ⟨⟨[2], rfl⟩, rfl, rfl, rfl, rfl⟩

theorem transmits_hundred :
    Transmits (fun _ _ b => b) (.epIn 7) 1 (queuedOnIntr 100) ↔
      ((queuedOnIntr 100).udc.req 1).length ≠ 0 :=
  transmits_iff _ (intrReady_queuedOnIntr 100) (by decide) (by decide)

/-- The empty packet of request 1 is sent, and the request stays at the head of the queue. -/
theorem not_transmits :
    ¬ ∀ (complete : Complete) (e : EpId) (r : ReqId) (M : Nat) (b : Board), IntrReady e r M b →
      1 ≤ M → M ≤ 64 → (b.udc.req r).length.toNat ≤ 65535 → Transmits complete e r b :=
  fun h => (intrReady_queuedOnIntr 0).not_transmits_of_empty (fun _ _ b => b) rfl
    (h _ _ 1 64 _ (intrReady_queuedOnIntr 0) (by decide) (by decide) (by decide))

end RealtekIpcam.Board
