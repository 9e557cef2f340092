import RealtekIpcam.Lib.PacketBuffer
import RealtekIpcam.Lib.Packets
import RealtekIpcam.Lib.Runs
import RealtekIpcam.Udc.Transfer

/-!
# The bytes of a packet transfer

`Udc.Transfer` follows a transfer on ep0 or on an interrupt endpoint by its lengths.  Here are the
bytes: the memory with the buffers of the requests, the word registers of the packet buffers, the
byte count registers, and the packets that have been handed over to the hardware.  Each function is
the one of `Udc.Transfer` together with the loop of the source that moves the words.

A handler also gives the call of `rts_done` that it makes, if it makes one, with the state in which
it makes it.  The completion callback of the gadget driver is a parameter and may do anything to the
board.  Of the enable bits the model keeps what they do: setting a transmit bit hands the first
bytes of the packet buffer over, as many as the byte count register says.
-/

namespace RealtekIpcam

/-- The driver, the memory and the packet buffers. -/
structure Board where
  udc : Udc
  ram : Ram.Memory
  /-- `request.buf`. -/
  buf : Udc.ReqId → UInt32
  /-- The words from `EP0_BASE` on. -/
  ep0Buf : Nat → UInt32
  /-- `R_EP0_MC_BUF_BC`. -/
  ep0Bc : UInt32
  /-- The packets handed over on ep0. -/
  ep0Sent : List (List UInt8)
  /-- The words from `USB_INTEREPA_DAT0` on, of endpoint 7 and of those after it. -/
  intrBuf : Nat → Nat → UInt32
  /-- `USB_INTEREPA_BC` and its successors. -/
  intrBc : Nat → UInt32
  /-- The packets handed over on each interrupt endpoint. -/
  intrSent : Nat → List (List UInt8)

/-- A call of `rts_done`, with the state in which it is made. -/
structure Done where
  ep : Udc.EpId
  req : Udc.ReqId
  status : Int
  board : Board

namespace Board

open Udc PacketBuffer Runs

/-- A completion callback of the gadget driver. -/
abbrev Complete := EpId → ReqId → Board → Board

variable (complete : Complete) (b : Board)

/-! ## Moving words -/

/-- How often the body of `for (i = 0; i <= (length - 1) / 4; i++)` runs.  The 16-bit `length` is
promoted to `int`, and its division rounds towards zero. -/
def wordCount (length : UInt16) : Nat := (((length.toNat : Int) - 1).tdiv 4 + 1).toNat

/-- The address `request.buf + request.actual`. -/
def bufferOf (r : ReqId) : UInt32 := b.buf r + (b.udc.req r).actual

/-- The bytes the next packet of a request takes. -/
def nextLength (e : EpId) (r : ReqId) : UInt16 :=
  packetLength (b.udc.req r) (b.udc.ep e).maxpacket

/-! ## Transfers on ep0 -/

def rtsStartEp0Transfer (e : EpId) (r : ReqId) : Board :=
  let u := b.udc.rtsStartEp0Transfer e r
  if (b.udc.ep e).dirIn then
    let length := b.nextLength e r
    let words := loadWords b.ram (b.bufferOf r) b.ep0Buf (wordCount length)
    let bc := length.toUInt32 &&& 0xff
    { b with
      udc := u, ep0Buf := words, ep0Bc := bc,
      ep0Sent := b.ep0Sent ++ [bytes words bc.toNat] }
  else { b with udc := u }

def rtsDone (e : EpId) (r : ReqId) (status : Int) : Board :=
  let c := complete e r { b with udc := b.udc.rtsDoneEnter e r status }
  { c with udc := c.udc.rtsDoneLeave e (b.udc.ep e).stopped }

def rtsEp0Queue (e : EpId) (r : ReqId) : Option Done × Board :=
  if (b.udc.req r).length = 0 then (some ⟨e, r, 0, b⟩, b.rtsDone complete e r 0)
  else (none, b.rtsStartEp0Transfer e r)

/-- The part of `rts_ep0_transfer_process` that accounts for the packet, with the loop that stores a
received one. -/
def ep0Advance (e : EpId) (r : ReqId) : Board :=
  let u := b.udc.ep0Advance e r
  if (b.udc.req r).length ≠ (b.udc.req r).actual ∧ (b.udc.ep e).dirIn = false then
    let words := wordCount (b.nextLength e r)
    { b with udc := u, ram := storeWords b.ep0Buf (b.bufferOf r) b.ram words }
  else { b with udc := u }

def rtsEp0TransferProcess (e : EpId) : Option Done × Board :=
  match (b.udc.ep e).queue with
  | [] => (none, b)
  | r :: _ =>
    let c := b.ep0Advance e r
    if c.udc.packetsDone e r then (some ⟨e, r, 0, c⟩, c.rtsDone complete e r 0)
    else (none, c.rtsStartEp0Transfer e r)

/-! ## Transfers on interrupt endpoints -/

def rtsStartIntrTransfer (e : EpId) (r : ReqId) : Board :=
  let u := b.udc.rtsStartIntrTransfer e r
  let n := (b.udc.ep e).epnum
  if (b.udc.ep e).dirIn then
    let length := b.nextLength e r
    let words := loadWords b.ram (b.bufferOf r) (b.intrBuf n) (wordCount length)
    { b with
      udc := u
      intrBuf := Function.update b.intrBuf n words
      intrBc := Function.update b.intrBc n length.toUInt32
      intrSent := Function.update b.intrSent n (b.intrSent n ++ [bytes words length.toNat]) }
  else { b with udc := u }

def rtsStartNextRequest (e : EpId) : Board :=
  match (b.udc.ep e).queue with
  | [] => b
  | r :: _ =>
    if usesIntr (b.udc.ep e) then b.rtsStartIntrTransfer e r
    else { b with udc := b.udc.rtsStartDmaTransfer e r }

def rtsIntrTransferProcess (e : EpId) (r : ReqId) : Option Done × Board :=
  let c := { b with udc := b.udc.intrAdvance e r }
  if c.udc.packetsDone e r then
    (some ⟨e, r, 0, c⟩, (c.rtsDone complete e r 0).rtsStartNextRequest e)
  else (none, c.rtsStartIntrTransfer e r)

def rtsUsbIntrInProcess (e : EpId) : Option Done × Board :=
  match (b.udc.ep e).queue with
  | [] => (none, b)
  | r :: _ => if (b.udc.req r).length ≠ 0 then b.rtsIntrTransferProcess complete e r else (none, b)

/-- The body of the loop of `rts_usb_intrep_irq`; `inf` is the endpoint's bit
`I_INTEP_INF_OFFSET`. -/
def rtsUsbIntrepIrq (inf : Bool) (e : EpId) : Option Done × Board :=
  if (b.udc.ep e).epEnable && inf then b.rtsUsbIntrInProcess complete e else (none, b)

/-- **A transfer in packets.**  Interrupt after interrupt the packets `ps` are handed over in order;
`rts_done` is called once, at the interrupt for the last of them, with everything accounted for. -/
structure Sends (irq : Board → Unit → Option Done × Board) (sent : Board → List (List UInt8))
    (e : EpId) (r : ReqId) (before ps : List (List UInt8)) (b : Board) : Prop where
  silent : ∀ k < ps.length, (collect irq b (List.replicate k ())).1 = [] ∧
    sent (collect irq b (List.replicate k ())).2 = before ++ ps.take (k + 1)
  completes : ∃ c : Board, (collect irq b (List.replicate ps.length ())).1 = [⟨e, r, 0, c⟩] ∧
    (c.udc.req r).actual.toNat = ps.flatten.length ∧ sent c = before ++ ps

/-- The step to the transfer: an invariant that holds while packet `k` is out, and what the
interrupt for a packet makes of it. -/
theorem Sends.of_step {irq : Board → Unit → Option Done × Board}
    {sent : Board → List (List UInt8)} {e : EpId} {r : ReqId} {before ps : List (List UInt8)}
    {b : Board} {P : Nat → Board → Prop} (hpos : 0 < ps.length) (hstart : P 0 b)
    (hsent : ∀ k c, P k c → sent c = before ++ ps.take (k + 1))
    (hnext : ∀ k c, P k c → k + 1 < ps.length → (irq c ()).1 = none ∧ P (k + 1) (irq c ()).2)
    (hlast : ∀ k c, P k c → k + 1 = ps.length → ∃ d : Board, (irq c ()).1 = some ⟨e, r, 0, d⟩ ∧
      (d.udc.req r).actual.toNat = ps.flatten.length ∧ sent d = before ++ ps) :
    Sends irq sent e r before ps b := by
  have hrun : ∀ k < ps.length, (collect irq b (List.replicate k ())).1 = [] ∧
      P k (collect irq b (List.replicate k ())).2 := by
    intro k hk
    have h : (collect irq b (List.replicate k ())).1 = [] ∧
        P (List.replicate k ()).length (collect irq b (List.replicate k ())).2 :=
      collect_silent hstart fun i hi c hc =>
        hnext i c hc (by rw [List.length_replicate] at hi; omega)
    rwa [List.length_replicate] at h
  refine ⟨fun k hk => ⟨(hrun k hk).1, hsent k _ (hrun k hk).2⟩, ?_⟩
  obtain ⟨n, hn⟩ : ∃ n, ps.length = n + 1 := ⟨ps.length - 1, by omega⟩
  obtain ⟨hout, hP⟩ := hrun n (by omega)
  obtain ⟨d, hd, hactual, hall⟩ := hlast n _ hP hn.symm
  refine ⟨d, ?_, hactual, hall⟩
  rw [hn, List.replicate_succ', collect_concat, hout, hd]
  rfl

@[simp] theorem rtsStartEp0Transfer_udc (e : EpId) (r : ReqId) :
    (b.rtsStartEp0Transfer e r).udc = b.udc.rtsStartEp0Transfer e r := by
  unfold rtsStartEp0Transfer
  split
  · rfl
  · rfl

@[simp] theorem ep0Advance_udc (e : EpId) (r : ReqId) :
    (b.ep0Advance e r).udc = b.udc.ep0Advance e r := by
  unfold ep0Advance
  split
  · rfl
  · rfl

@[simp] theorem rtsStartIntrTransfer_udc (e : EpId) (r : ReqId) :
    (b.rtsStartIntrTransfer e r).udc = b.udc.rtsStartIntrTransfer e r := by
  unfold rtsStartIntrTransfer
  split
  · rfl
  · rfl

/-! ## Lengths -/

theorem tdiv_four {n : Nat} (h : 0 < n) : ((n : Int) - 1).tdiv 4 = ((n - 1) / 4 : Nat) := by
  rw [Int.tdiv_eq_ediv_of_nonneg (by omega)]
  omega

theorem wordCount_eq {length : UInt16} (h : 0 < length.toNat) :
    wordCount length = (length.toNat - 1) / 4 + 1 := by
  rw [wordCount, tdiv_four h]
  rfl

theorem le_wordCount (length : UInt16) : length.toNat ≤ 4 * wordCount length := by
  by_cases h : 0 < length.toNat
  · rw [wordCount_eq h]
    omega
  · omega

/-- A transfer of `L` bytes in packets of `M`, of which `k` packets are behind it. -/
structure Progress (r : ReqId) (M L k : Nat) (u : Udc) : Prop where
  length : (u.req r).length.toNat = L
  actual : (u.req r).actual.toNat = M * k

theorem Progress.length_ne_actual {u : Udc} {r : ReqId} {M L k : Nat} (h : Progress r M L k u)
    (hk : M * k < L) : (u.req r).length ≠ (u.req r).actual := by
  intro heq
  have hnat := congrArg UInt32.toNat heq
  rw [h.length, h.actual] at hnat
  omega

theorem Progress.toNat_packetLength {u : Udc} {r : ReqId} {M L k : Nat} (h : Progress r M L k u)
    (hL : L ≤ 65535) (hk : M * k ≤ L) {maxpacket : UInt16} (hM : maxpacket.toNat = M) :
    (packetLength (u.req r) maxpacket).toNat = min M (L - M * k) := by
  have hlen := h.length
  have hact := h.actual
  have hsub : ((u.req r).length - (u.req r).actual).toNat = L - M * k := by
    rw [UInt32.toNat_sub_of_le _ _ (by rw [UInt32.le_iff_toNat_le]; omega), hlen, hact]
  have hcut : ((u.req r).length - (u.req r).actual).toUInt16.toNat = L - M * k := by
    rw [UInt32.toNat_toUInt16, hsub, Nat.mod_eq_of_lt (by omega)]
  unfold packetLength
  dsimp only
  split
  · next hgt =>
    rw [gt_iff_lt, UInt16.lt_iff_toNat_lt, hcut, hM] at hgt
    rw [hM, Nat.min_eq_left (Nat.le_of_lt hgt)]
  · next hgt =>
    rw [gt_iff_lt, UInt16.lt_iff_toNat_lt, hcut, hM] at hgt
    rw [hcut, Nat.min_eq_right (Nat.le_of_not_lt hgt)]

theorem Progress.toNat_actual_add {u : Udc} {r : ReqId} {M L k : Nat} (h : Progress r M L k u)
    (hL : L ≤ 65535) (hk : M * k ≤ L) {n : UInt16} (hn : n.toNat = min M (L - M * k)) :
    ((u.req r).actual + n.toUInt32).toNat = min (M * (k + 1)) L := by
  rw [UInt32.toNat_add, h.actual, UInt16.toNat_toUInt32, hn, Nat.mul_succ]
  omega

theorem packetsDone_iff {u : Udc} {e : EpId} {r : ReqId} {M L k : Nat}
    (hM : (u.ep e).maxpacket.toNat = M) (hlen : (u.req r).length.toNat = L)
    (hact : (u.req r).actual.toNat = min (M * (k + 1)) L) :
    u.packetsDone e r = true ↔ L ≤ M * (k + 1) := by
  unfold packetsDone
  rw [Bool.or_eq_true, beq_iff_eq, decide_eq_true_eq, ← UInt32.toNat_inj, UInt32.lt_iff_toNat_lt,
    UInt16.toNat_toUInt32, hlen, hact, hM]
  rw [Nat.mul_succ]
  omega

end Board
end RealtekIpcam
