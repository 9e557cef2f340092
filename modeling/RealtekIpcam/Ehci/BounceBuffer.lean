import Mathlib.Data.List.Basic

/-!
# Bounce buffers of the EHCI host

The controller needs transfer buffers that start at a multiple of 32.  For any other buffer
`ehci_rts_map_urb_for_dma` allocates an aligned one, and `ehci_rts_unmap_urb_for_dma` copies what
was received back and restores the URB.

The caller's bytes go into the fresh buffer for an OUT transfer only, and all of the buffer comes
back after an IN transfer.  So a controller that writes less than the whole buffer
leaves the rest of the caller's as `kmalloc` returned it, and not as it was.

Addresses are natural numbers.  `hdr` is the size of `struct dma_aligned_buffer`, and `mapMask` the
flags that `usb_hcd_map_urb_for_dma` may set and `usb_hcd_unmap_urb_for_dma` clears.
-/

namespace RealtekIpcam.Ehci

open Function

/-- `urb->transfer_flags`. -/
structure TransferFlags where
  alignedTempBuffer : Bool
  noTransferDmaMap : Bool
  dirIn : Bool
  rest : BitVec 32
  deriving DecidableEq

/-- `struct urb`.  A scatter list has its segments with their lengths. -/
structure Urb where
  transferBuffer : Nat
  transferDma : Nat
  sg : Option (List (Nat × Nat))
  numSgs : Nat
  transferBufferLength : Nat
  flags : TransferFlags
  deriving DecidableEq

/-- `struct dma_aligned_buffer`, before its data. -/
structure DmaAlignedBuffer where
  kmallocPtr : Nat
  oldXferBuffer : Nat
  deriving DecidableEq

/-- The memory: its bytes, the `struct dma_aligned_buffer` that is read at an address, and what
was passed to `kfree`. -/
structure Memory where
  bytes : Nat → UInt8
  headers : Nat → DmaAlignedBuffer
  freed : List Nat

/-- `RTS_USB_DMA_ALIGN`. -/
def dmaAlign : Nat := 32

/-- `PTR_ALIGN` to the alignment of the controller. -/
def ptrAlign (a : Nat) : Nat := (a + (dmaAlign - 1)) / dmaAlign * dmaAlign

def Memory.memcpy (m : Memory) (dst src n : Nat) : Memory :=
  { m with
    bytes := fun a => if dst ≤ a ∧ a < dst + n then m.bytes (src + (a - dst)) else m.bytes a }

/-- `alloc_dma_aligned_buffer` has nothing to do. -/
def Urb.NoBounce (u : Urb) : Prop :=
  (u.numSgs ≠ 0 ∨ u.sg.isSome = true) ∨ u.transferBufferLength = 0 ∨
    u.transferBuffer % dmaAlign = 0 ∨ u.flags.noTransferDmaMap = true
  deriving Decidable

variable (hdr : Nat) (mapMask : BitVec 32)

/-- The data of the buffer that is placed in an allocation. -/
def dataOf (kmallocPtr : Nat) : Nat := ptrAlign (kmallocPtr + hdr)

/-- What is passed to `kmalloc`. -/
def kmallocSize (u : Urb) : Nat := u.transferBufferLength + hdr + (dmaAlign - 1)

/-- `alloc_dma_aligned_buffer`, with the answer of `kmalloc`. -/
def allocDmaAlignedBuffer (kmalloc : Option Nat) (m : Memory) (u : Urb) : Int × Memory × Urb :=
  if u.NoBounce then (0, m, u)
  else
    match kmalloc with
    | none => (-12, m, u)
    | some kmallocPtr =>
      let data := dataOf hdr kmallocPtr
      let m := { m with
        headers := update m.headers (data - hdr) ⟨kmallocPtr, u.transferBuffer⟩ }
      let m :=
        if !u.flags.dirIn then m.memcpy data u.transferBuffer u.transferBufferLength else m
      (0, m, { u with
        transferBuffer := data
        flags := { u.flags with alignedTempBuffer := true } })

def freeDmaAlignedBuffer (m : Memory) (u : Urb) : Memory × Urb :=
  if !u.flags.alignedTempBuffer || u.flags.noTransferDmaMap then (m, u)
  else
    let temp := m.headers (u.transferBuffer - hdr)
    let m :=
      if u.flags.dirIn then
        m.memcpy temp.oldXferBuffer u.transferBuffer u.transferBufferLength
      else m
    ({ m with freed := m.freed ++ [temp.kmallocPtr] },
      { u with
        transferBuffer := temp.oldXferBuffer
        flags := { u.flags with alignedTempBuffer := false } })

/-- What `usb_hcd_map_urb_for_dma` answers, and the flags that it sets. -/
structure HcdMap where
  ret : Int
  bits : BitVec 32
  deriving DecidableEq

def usbHcdMapUrbForDma (hcd : HcdMap) (u : Urb) : Int × Urb :=
  (hcd.ret, { u with flags := { u.flags with rest := u.flags.rest ||| (hcd.bits &&& mapMask) } })

def usbHcdUnmapUrbForDma (u : Urb) : Urb :=
  { u with flags := { u.flags with rest := u.flags.rest &&& ~~~mapMask } }

def ehciRtsMapUrbForDma (kmalloc : Option Nat) (hcd : HcdMap) (m : Memory) (u : Urb) :
    Int × Memory × Urb :=
  let (ret, m, u) := allocDmaAlignedBuffer hdr kmalloc m u
  if ret ≠ 0 then (ret, m, u)
  else
    let (ret, u) := usbHcdMapUrbForDma mapMask hcd u
    if ret ≠ 0 then (ret, freeDmaAlignedBuffer hdr m u) else (ret, m, u)

def ehciRtsUnmapUrbForDma (m : Memory) (u : Urb) : Memory × Urb :=
  freeDmaAlignedBuffer hdr m (usbHcdUnmapUrbForDma mapMask u)

/-! ## The transfer -/

/-- The address of byte `i` of a scatter list. -/
def sgAddr : List (Nat × Nat) → Nat → Nat
  | [], i => i
  | (base, len) :: segs, i => if i < len then base + i else sgAddr segs (i - len)

/-- Where the controller has byte `i` of a transfer. -/
def Urb.target (u : Urb) (i : Nat) : Nat :=
  if u.numSgs ≠ 0 ∨ u.sg.isSome = true then sgAddr (u.sg.getD []) i
  else if u.flags.noTransferDmaMap then u.transferDma + i
  else u.transferBuffer + i

/-- The bytes that the controller writes, `none` for one that it leaves. -/
abbrev Received := Nat → Option UInt8

/-- The controller writes to the first `n` bytes of a buffer. -/
def store (bytes : Nat → UInt8) (target : Nat → Nat) (written : Received) : Nat → Nat → UInt8
  | 0 => bytes
  | n + 1 =>
    match written n with
    | some b => update (store bytes target written n) (target n) b
    | none => store bytes target written n

/-- The transfer: what the memory is after it, and the bytes that the controller sent. -/
def transfer (written : Received) (m : Memory) (u : Urb) : Memory × List UInt8 :=
  if u.flags.dirIn then
    ({ m with bytes := store m.bytes u.target written u.transferBufferLength }, [])
  else (m, (List.range u.transferBufferLength).map fun i => m.bytes (u.target i))

/-- A transfer with the driver's mapping, `none` when the mapping fails. -/
def submit (kmalloc : Option Nat) (hcd : HcdMap) (written : Received) (m : Memory) (u : Urb) :
    Option (Memory × Urb × List UInt8) :=
  let (ret, m, u) := ehciRtsMapUrbForDma hdr mapMask kmalloc hcd m u
  if ret ≠ 0 then none
  else
    let (m, sent) := transfer written m u
    let (m, u) := ehciRtsUnmapUrbForDma hdr mapMask m u
    some (m, u, sent)

/-- The transfer as it is when the controller can access every buffer. -/
def submitDirect (hcd : HcdMap) (written : Received) (m : Memory) (u : Urb) :
    Memory × Urb × List UInt8 :=
  let u := (usbHcdMapUrbForDma mapMask hcd u).2
  let (m, sent) := transfer written m u
  (m, usbHcdUnmapUrbForDma mapMask u, sent)

/-- An address in what is allocated for the URB. -/
def Allocated (kmalloc : Option Nat) (u : Urb) (a : Nat) : Prop :=
  ¬ u.NoBounce ∧ ∃ kmallocPtr ∈ kmalloc, kmallocPtr ≤ a ∧ a < kmallocPtr + kmallocSize hdr u

/-- What `kmalloc` answers does not overlap the caller's buffer. -/
def KmallocOk (kmalloc : Option Nat) (u : Urb) : Prop :=
  ∀ kmallocPtr ∈ kmalloc, kmallocPtr + kmallocSize hdr u ≤ u.transferBuffer ∨
    u.transferBuffer + u.transferBufferLength ≤ kmallocPtr

/-- Two transfers look the same to the caller: in the bytes that were not allocated for one
of them, in the URB and in what was sent. -/
def LooksLike (kmalloc : Option Nat) (u : Urb) (r d : Memory × Urb × List UInt8) : Prop :=
  (∀ a, ¬ Allocated hdr kmalloc u a → r.1.bytes a = d.1.bytes a) ∧
    r.2.1.transferBuffer = d.2.1.transferBuffer ∧ r.2.1.flags = d.2.1.flags ∧ r.2.2 = d.2.2

/-- The flag of the bounce buffer is not set before there is one. -/
def FlagClear (u : Urb) : Prop :=
  u.flags.alignedTempBuffer = true → u.flags.noTransferDmaMap = true

/-- The bytes that an IN transfer through a bounce buffer does not write happen to be in it
before the transfer. -/
def FreshAgrees (kmalloc : Option Nat) (written : Received) (m : Memory) (u : Urb) : Prop :=
  ¬ u.NoBounce → u.flags.dirIn = true → ∀ kmallocPtr ∈ kmalloc, ∀ i < u.transferBufferLength,
    written i = none → m.bytes (dataOf hdr kmallocPtr + i) = m.bytes (u.transferBuffer + i)

variable {hdr mapMask}
variable {kmalloc : Option Nat} {kmallocPtr : Nat} {hcd : HcdMap} {written : Received}
  {m m' : Memory} {u u' : Urb} {sent : List UInt8}

theorem store_add (bytes : Nat → UInt8) (base : Nat) (written : Received) (n a : Nat) :
    store bytes (base + ·) written n a =
      if base ≤ a ∧ a < base + n then (written (a - base)).getD (bytes a) else bytes a := by
  induction n with
  | zero =>
    rw [if_neg fun h => Nat.not_lt.mpr h.1 h.2]
    rfl
  | succ n ih =>
    have hlast : base + n = a ↔ base ≤ a ∧ a - base = n := by omega
    rw [store]
    cases hw : written n with
    | none =>
      dsimp only
      rw [ih]
      by_cases ha : base + n = a
      · obtain ⟨hle, hsub⟩ := hlast.mp ha
        rw [if_neg (by omega), if_pos (by omega), hsub, hw]
        rfl
      · have hiff : base ≤ a ∧ a < base + n ↔ base ≤ a ∧ a < base + (n + 1) := by omega
        simp only [hiff]
    | some b =>
      dsimp only
      by_cases ha : base + n = a
      · obtain ⟨hle, hsub⟩ := hlast.mp ha
        rw [ha, update_self, if_pos (by omega), hsub, hw]
        rfl
      · have hiff : base ≤ a ∧ a < base + n ↔ base ≤ a ∧ a < base + (n + 1) := by omega
        rw [update_of_ne (Ne.symm ha), ih]
        simp only [hiff]

theorem or_and_not_mask (rest bits mapMask : BitVec 32) :
    (rest ||| (bits &&& mapMask)) &&& ~~~mapMask = rest &&& ~~~mapMask := by
  ext i hi
  simp only [BitVec.getElem_and, BitVec.getElem_or, BitVec.getElem_not]
  cases rest[i] <;> cases bits[i] <;> cases mapMask[i] <;> rfl

theorem dataOf_mem (hdr kmallocPtr : Nat) (u : Urb) :
    dataOf hdr kmallocPtr % dmaAlign = 0 ∧ kmallocPtr + hdr ≤ dataOf hdr kmallocPtr ∧
      dataOf hdr kmallocPtr + u.transferBufferLength ≤ kmallocPtr + kmallocSize hdr u := by
  unfold dataOf ptrAlign kmallocSize dmaAlign
  omega

/-! ## The two ways of a transfer -/

theorem freeDmaAlignedBuffer_of_keep
    (h : u.flags.alignedTempBuffer = false ∨ u.flags.noTransferDmaMap = true) :
    freeDmaAlignedBuffer hdr m u = (m, u) := by
  unfold freeDmaAlignedBuffer
  rcases h with h | h <;> simp [h]

theorem freeDmaAlignedBuffer_flags (h : u.flags.noTransferDmaMap = false) :
    (freeDmaAlignedBuffer hdr m u).2.flags = { u.flags with alignedTempBuffer := false } := by
  unfold freeDmaAlignedBuffer
  cases halign : u.flags.alignedTempBuffer with
  | false =>
    rw [Bool.not_false, Bool.true_or, if_pos rfl, ← halign]
  | true =>
    rw [h]
    rfl

theorem Urb.of_not_noBounce (h : ¬ u.NoBounce) :
    u.numSgs = 0 ∧ u.sg.isSome = false ∧ u.flags.noTransferDmaMap = false := by
  unfold NoBounce at h
  refine ⟨?_, Bool.eq_false_iff.mpr fun hsg => h (Or.inl (Or.inr hsg)),
    Bool.eq_false_iff.mpr fun hdma => h (Or.inr (Or.inr (Or.inr hdma)))⟩
  by_contra hsgs
  exact h (Or.inl (Or.inl hsgs))

theorem Urb.target_eq (hsgs : u.numSgs = 0) (hsg : u.sg.isSome = false)
    (hdma : u.flags.noTransferDmaMap = false) : u.target = (u.transferBuffer + ·) := by
  funext i
  simp only [target, hsgs, hsg, hdma, ne_eq, not_true_eq_false, Bool.false_eq_true, or_self,
    if_false]

theorem submit_of_bounce (hdr : Nat) (mapMask : BitVec 32) (kmallocPtr : Nat) (hcd : HcdMap)
    (written : Received) (m : Memory) (hb : ¬ u.NoBounce) (hret : hcd.ret = 0) :
    ∃ m', submit hdr mapMask (some kmallocPtr) hcd written m u =
        some (m', { u with flags := { u.flags with
          alignedTempBuffer := false, rest := u.flags.rest &&& ~~~mapMask } },
          if u.flags.dirIn then []
          else (List.range u.transferBufferLength).map fun i => m.bytes (u.transferBuffer + i)) ∧
      ∀ a, m'.bytes a =
        if u.flags.dirIn then
          if u.transferBuffer ≤ a ∧ a < u.transferBuffer + u.transferBufferLength then
            (written (a - u.transferBuffer)).getD
              (m.bytes (dataOf hdr kmallocPtr + (a - u.transferBuffer)))
          else
            store m.bytes (dataOf hdr kmallocPtr + ·) written u.transferBufferLength a
        else if dataOf hdr kmallocPtr ≤ a ∧
            a < dataOf hdr kmallocPtr + u.transferBufferLength then
          m.bytes (u.transferBuffer + (a - dataOf hdr kmallocPtr))
        else m.bytes a := by
  obtain ⟨hsgs, hsg, hdma⟩ := Urb.of_not_noBounce hb
  cases hdir : u.flags.dirIn with
  | true =>
    simp only [submit, ehciRtsMapUrbForDma, allocDmaAlignedBuffer, if_neg hb,
      usbHcdMapUrbForDma, hret, transfer, ehciRtsUnmapUrbForDma, usbHcdUnmapUrbForDma,
      freeDmaAlignedBuffer, Urb.target_eq, hsgs, hsg, hdir, hdma, or_and_not_mask, if_true,
      Bool.not_true, Bool.or_false, Bool.false_eq_true, if_false, ne_eq, not_true_eq_false,
      update_self]
    refine ⟨_, rfl, fun a => ?_⟩
    dsimp only [Memory.memcpy]
    by_cases ha : u.transferBuffer ≤ a ∧ a < u.transferBuffer + u.transferBufferLength
    · rw [if_pos ha, if_pos ha, store_add, if_pos (by omega), Nat.add_sub_cancel_left]
    · rw [if_neg ha, if_neg ha]
  | false =>
    simp only [submit, ehciRtsMapUrbForDma, allocDmaAlignedBuffer, if_neg hb,
      usbHcdMapUrbForDma, hret, transfer, ehciRtsUnmapUrbForDma, usbHcdUnmapUrbForDma,
      freeDmaAlignedBuffer, Urb.target_eq, hsgs, hsg, hdir, hdma, or_and_not_mask, if_true,
      Bool.not_true, Bool.or_false, Bool.false_eq_true, if_false, ne_eq, not_true_eq_false,
      Bool.not_false, Memory.memcpy, update_self]
    refine ⟨_, congrArg some (Prod.ext rfl (Prod.ext rfl ?_)), fun a => rfl⟩
    refine List.map_congr_left fun i hi => ?_
    have hlt := List.mem_range.mp hi
    rw [if_pos (by omega), Nat.add_sub_cancel_left]

theorem submit_of_noBounce (hb : u.NoBounce) :
    submit hdr mapMask kmalloc hcd written m u =
      if hcd.ret ≠ 0 then none
      else
        let free := freeDmaAlignedBuffer hdr (transfer written m u).1
          (usbHcdUnmapUrbForDma mapMask u)
        some (free.1, free.2, (transfer written m u).2) := by
  simp only [submit, ehciRtsMapUrbForDma, allocDmaAlignedBuffer, if_pos hb, usbHcdMapUrbForDma,
    ne_eq, not_true_eq_false, if_false]
  by_cases hret : hcd.ret = 0
  · simp only [hret, not_true_eq_false, if_false, ehciRtsUnmapUrbForDma, usbHcdUnmapUrbForDma,
      or_and_not_mask]
    rfl
  · simp only [hret, not_false_eq_true, if_true]

theorem submitDirect_eq :
    submitDirect mapMask hcd written m u =
      ((transfer written m u).1, usbHcdUnmapUrbForDma mapMask u, (transfer written m u).2) := by
  simp only [submitDirect, usbHcdMapUrbForDma, usbHcdUnmapUrbForDma, or_and_not_mask]
  rfl

theorem looksLike_iff_of_noBounce (hb : u.NoBounce) {r : Memory × Urb × List UInt8}
    (hrun : submit hdr mapMask kmalloc hcd written m u = some r) (hcd' : HcdMap) :
    LooksLike hdr kmalloc u r (submitDirect mapMask hcd' written m u) ↔ FlagClear u := by
  rw [submit_of_noBounce hb] at hrun
  obtain ⟨-, hr⟩ := Option.ite_none_left_eq_some.mp hrun
  obtain rfl := Option.some.inj hr
  rw [submitDirect_eq]
  unfold FlagClear
  have hkeep : u.flags.alignedTempBuffer = false ∨ u.flags.noTransferDmaMap = true →
      freeDmaAlignedBuffer hdr (transfer written m u).1 (usbHcdUnmapUrbForDma mapMask u) =
        ((transfer written m u).1, usbHcdUnmapUrbForDma mapMask u) := by
    intro h
    exact freeDmaAlignedBuffer_of_keep h
  cases halign : u.flags.alignedTempBuffer with
  | false =>
    rw [hkeep (Or.inl halign)]
    exact ⟨nofun, fun _ => ⟨fun _ _ => rfl, rfl, rfl, rfl⟩⟩
  | true =>
    cases hdma : u.flags.noTransferDmaMap with
    | true =>
      rw [hkeep (Or.inr hdma)]
      exact ⟨fun _ _ => rfl, fun _ => ⟨fun _ _ => rfl, rfl, rfl, rfl⟩⟩
    | false =>
      refine ⟨fun hlike => ?_, fun h => Bool.noConfusion (h rfl)⟩
      have hfree : (freeDmaAlignedBuffer hdr (transfer written m u).1
          (usbHcdUnmapUrbForDma mapMask u)).2.flags =
            { (usbHcdUnmapUrbForDma mapMask u).flags with alignedTempBuffer := false } :=
        freeDmaAlignedBuffer_flags hdma
      have hflags := congrArg TransferFlags.alignedTempBuffer (hfree.symm.trans hlike.2.2.1)
      exact Bool.noConfusion (hflags.trans halign)

theorem not_mem_data (hb : ¬ u.NoBounce) {a : Nat}
    (ha : ¬ Allocated hdr (some kmallocPtr) u a) :
    ¬ (dataOf hdr kmallocPtr ≤ a ∧ a < dataOf hdr kmallocPtr + u.transferBufferLength) := by
  obtain ⟨-, hlow, hhigh⟩ := dataOf_mem hdr kmallocPtr u
  rintro ⟨hle, hlt⟩
  exact ha ⟨hb, kmallocPtr, rfl, by omega, by omega⟩

theorem not_allocated_buffer (hfresh : KmallocOk hdr kmalloc u) {i : Nat}
    (hi : i < u.transferBufferLength) : ¬ Allocated hdr kmalloc u (u.transferBuffer + i) := by
  rintro ⟨-, kmallocPtr, hk, hle, hlt⟩
  have hapart := hfresh kmallocPtr hk
  omega

theorem bytes_eq_iff_of_bounce (hb : ¬ u.NoBounce) (hfresh : KmallocOk hdr (some kmallocPtr) u) :
    (∀ a, ¬ Allocated hdr (some kmallocPtr) u a →
      (if u.transferBuffer ≤ a ∧ a < u.transferBuffer + u.transferBufferLength then
        (written (a - u.transferBuffer)).getD
          (m.bytes (dataOf hdr kmallocPtr + (a - u.transferBuffer)))
      else store m.bytes (dataOf hdr kmallocPtr + ·) written u.transferBufferLength a) =
        store m.bytes (u.transferBuffer + ·) written u.transferBufferLength a) ↔
      ∀ i < u.transferBufferLength, written i = none →
        m.bytes (dataOf hdr kmallocPtr + i) = m.bytes (u.transferBuffer + i) := by
  constructor
  · intro h i hi hw
    have hin : u.transferBuffer ≤ u.transferBuffer + i ∧
        u.transferBuffer + i < u.transferBuffer + u.transferBufferLength := by omega
    have hbyte := h _ (not_allocated_buffer hfresh hi)
    rwa [if_pos hin, store_add, if_pos hin, Nat.add_sub_cancel_left, hw] at hbyte
  · intro h a ha
    rw [store_add m.bytes u.transferBuffer]
    by_cases hin : u.transferBuffer ≤ a ∧ a < u.transferBuffer + u.transferBufferLength
    · rw [if_pos hin, if_pos hin]
      obtain ⟨i, rfl⟩ := Nat.exists_eq_add_of_le hin.1
      rw [Nat.add_sub_cancel_left]
      cases hw : written i with
      | some b => rfl
      | none => exact h i (by omega) hw
    · rw [if_neg hin, if_neg hin, store_add, if_neg (not_mem_data hb ha)]

/-- The flags after a transfer through a bounce buffer are the right ones just when the flag was
clear. -/
theorem flags_eq_iff_flagClear (hdma : u.flags.noTransferDmaMap = false) :
    { u.flags with alignedTempBuffer := false, rest := u.flags.rest &&& ~~~mapMask } =
      (usbHcdUnmapUrbForDma mapMask u).flags ↔ FlagClear u := by
  constructor
  · intro h halign
    have hclear := congrArg TransferFlags.alignedTempBuffer h
    exact Bool.noConfusion (hclear.trans halign)
  · intro h
    have halign : u.flags.alignedTempBuffer = false :=
      Bool.eq_false_iff.mpr fun halign => Bool.noConfusion (hdma.symm.trans (h halign))
    rw [usbHcdUnmapUrbForDma, ← halign]

theorem of_submit_of_bounce (hb : ¬ u.NoBounce) {r : Memory × Urb × List UInt8}
    (hrun : submit hdr mapMask kmalloc hcd written m u = some r) :
    (∃ kmallocPtr, kmalloc = some kmallocPtr) ∧ hcd.ret = 0 := by
  cases kmalloc with
  | none => simp [submit, ehciRtsMapUrbForDma, allocDmaAlignedBuffer, if_neg hb] at hrun
  | some kmallocPtr =>
    refine ⟨⟨kmallocPtr, rfl⟩, ?_⟩
    by_contra hret
    simp [submit, ehciRtsMapUrbForDma, allocDmaAlignedBuffer, if_neg hb, usbHcdMapUrbForDma,
      hret] at hrun

theorem looksLike_iff_of_bounce (hb : ¬ u.NoBounce) (hfresh : KmallocOk hdr kmalloc u)
    {r : Memory × Urb × List UInt8}
    (hrun : submit hdr mapMask kmalloc hcd written m u = some r) (hcd' : HcdMap) :
    LooksLike hdr kmalloc u r (submitDirect mapMask hcd' written m u) ↔
      FlagClear u ∧ FreshAgrees hdr kmalloc written m u := by
  obtain ⟨hsgs, hsg, hdma⟩ := Urb.of_not_noBounce hb
  obtain ⟨⟨kmallocPtr, rfl⟩, hret⟩ := of_submit_of_bounce hb hrun
  obtain ⟨m', hsubmit, hbytes⟩ :=
    submit_of_bounce hdr mapMask kmallocPtr hcd written m hb hret
  obtain rfl := Option.some.inj (hrun.symm.trans hsubmit)
  have htarget : u.target = (u.transferBuffer + ·) := Urb.target_eq hsgs hsg hdma
  rw [submitDirect_eq, LooksLike, flags_eq_iff_flagClear hdma]
  simp only [hbytes]
  cases hdir : u.flags.dirIn with
  | true =>
    simp only [transfer, hdir, if_true, htarget]
    rw [bytes_eq_iff_of_bounce hb hfresh]
    constructor
    · rintro ⟨hfr, -, hclear, -⟩
      refine ⟨hclear, ?_⟩
      rintro - - _ ⟨⟩
      exact hfr
    · rintro ⟨hclear, hfr⟩
      exact ⟨hfr hb hdir kmallocPtr rfl, rfl, hclear, trivial⟩
  | false =>
    simp only [transfer, hdir, Bool.false_eq_true, if_false, htarget]
    constructor
    · rintro ⟨-, -, hclear, -⟩
      exact ⟨hclear, fun _ hin => Bool.noConfusion (hdir.symm.trans hin)⟩
    · rintro ⟨hclear, -⟩
      refine ⟨fun a ha => ?_, rfl, hclear, trivial⟩
      rw [if_neg (not_mem_data hb ha)]

/-- **Transparency.**  A transfer that the driver maps looks like one that needs no mapping
just when the flag of the bounce buffer was clear, and the bytes that the controller does not write
agree. -/
theorem looksLike_iff (hfresh : KmallocOk hdr kmalloc u) {r : Memory × Urb × List UInt8}
    (hrun : submit hdr mapMask kmalloc hcd written m u = some r) (hcd' : HcdMap) :
    LooksLike hdr kmalloc u r (submitDirect mapMask hcd' written m u) ↔
      FlagClear u ∧ FreshAgrees hdr kmalloc written m u := by
  by_cases hb : u.NoBounce
  · rw [looksLike_iff_of_noBounce hb hrun]
    exact (and_iff_left fun hne => absurd hb hne).symm
  · exact looksLike_iff_of_bounce hb hfresh hrun hcd'

/-- An IN transfer of two bytes to address 1. -/
def shortIn : Urb where
  transferBuffer := 1
  transferDma := 0
  sg := none
  numSgs := 0
  transferBufferLength := 2
  flags := ⟨false, false, true, 0⟩

/-- The memory before it: the heap has other bytes than the buffer. -/
def heapMemory : Memory where
  bytes a := if a < 1000 then 1 else 170
  headers _ := ⟨0, 0⟩
  freed := []

theorem kmallocOk_shortIn : KmallocOk 16 (some 1000) shortIn := by
  rintro _ ⟨⟩
  exact Or.inr (by decide)

/-- When the controller writes both bytes, the caller sees them. -/
theorem looksLike_full : ∃ r,
    submit 16 0 (some 1000) ⟨0, 0⟩ (fun _ => some 7) heapMemory shortIn = some r ∧
      LooksLike 16 (some 1000) shortIn r
        (submitDirect 0 ⟨0, 0⟩ (fun _ => some 7) heapMemory shortIn) := by
  have hnb : ¬ shortIn.NoBounce := by decide
  obtain ⟨m', hrun, -⟩ :=
    submit_of_bounce 16 0 1000 ⟨0, 0⟩ (fun _ => some 7) heapMemory hnb rfl
  refine ⟨_, hrun, (looksLike_iff kmallocOk_shortIn hrun ⟨0, 0⟩).mpr ⟨?_, ?_⟩⟩
  · exact nofun
  · exact nofun

/-- When it writes one of them, the caller's second byte is lost. -/
theorem not_looksLike_short : ∃ r,
    submit 16 0 (some 1000) ⟨0, 0⟩ (fun i => if i = 0 then some 7 else none) heapMemory shortIn =
        some r ∧
      ¬ LooksLike 16 (some 1000) shortIn r
        (submitDirect 0 ⟨0, 0⟩ (fun i => if i = 0 then some 7 else none) heapMemory shortIn) := by
  have hnb : ¬ shortIn.NoBounce := by decide
  obtain ⟨m', hrun, -⟩ := submit_of_bounce 16 0 1000 ⟨0, 0⟩
    (fun i => if i = 0 then some 7 else none) heapMemory hnb rfl
  refine ⟨_, hrun, fun hlike => ?_⟩
  have hagree :=
    ((looksLike_iff_of_bounce hnb kmallocOk_shortIn hrun ⟨0, 0⟩).mp hlike).2 hnb rfl 1000 rfl 1
      (by decide) rfl
  exact absurd hagree (by decide)

end RealtekIpcam.Ehci
