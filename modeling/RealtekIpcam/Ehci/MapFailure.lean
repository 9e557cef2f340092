import RealtekIpcam.Ehci.BounceBuffer

/-!
# Mappings that fail

`ehci_rts_map_urb_for_dma` fails in two places.  When `kmalloc` has no memory it has done
nothing yet.  When `usb_hcd_map_urb_for_dma` fails it undoes what it did with
`free_dma_aligned_buffer`, which is written for the end of a transfer: for an IN transfer it first
copies the bounce buffer to the caller's.  No transfer was made, and the caller's bytes went into
the bounce buffer for an OUT transfer only.  So the caller of an IN transfer gets back what
`kmalloc` returned.

`freeDmaAlignedBuffer` goes by the flag of the URB, and not by whether a buffer was allocated.  A
URB that comes with the flag set loses it.
-/

namespace RealtekIpcam.Ehci

/-- A byte of the caller's buffer: of the transfer buffer, of the scatter list, or of what the
caller mapped. -/
def Urb.InBuffer (u : Urb) (a : Nat) : Prop :=
  ∃ i < u.transferBufferLength, a = u.transferBuffer + i ∨ a = u.target i

/-- A call left the caller its URB and every byte of its buffer. -/
structure Untouched (m : Memory) (u : Urb) (m' : Memory) (u' : Urb) : Prop where
  transferBuffer : u'.transferBuffer = u.transferBuffer
  flags : u'.flags = u.flags
  bytes : ∀ a, u.InBuffer a → m'.bytes a = m.bytes a

/-- A call of `usb_hcd_map_urb_for_dma` that fails sets no flag. -/
def MapUndone (mapMask : BitVec 32) (hcd : HcdMap) : Prop :=
  hcd.ret ≠ 0 → hcd.bits &&& mapMask = 0

/-- `alloc_dma_aligned_buffer` fails. -/
def AllocFails (kmalloc : Option Nat) (u : Urb) : Prop := ¬ u.NoBounce ∧ kmalloc = none

variable {hdr : Nat} {mapMask : BitVec 32} {kmalloc : Option Nat} {kmallocPtr : Nat}
  {hcd : HcdMap} {m : Memory} {u : Urb}

theorem Untouched.refl (m : Memory) (u : Urb) : Untouched m u m u := ⟨rfl, rfl, fun _ _ => rfl⟩

/-! ## The two failures -/

theorem usbHcdMapUrbForDma_of_failed (hundo : MapUndone mapMask hcd) (hret : hcd.ret ≠ 0) :
    usbHcdMapUrbForDma mapMask hcd u = (hcd.ret, u) := by
  simp [usbHcdMapUrbForDma, hundo hret]

theorem ehciRtsMapUrbForDma_of_allocFails (h : AllocFails kmalloc u) :
    ehciRtsMapUrbForDma hdr mapMask kmalloc hcd m u = (-12, m, u) := by
  obtain ⟨hb, rfl⟩ := h
  simp [ehciRtsMapUrbForDma, allocDmaAlignedBuffer, if_neg hb]

theorem ret_ne_zero_of_failed (h : ¬ AllocFails kmalloc u)
    (herr : (ehciRtsMapUrbForDma hdr mapMask kmalloc hcd m u).1 ≠ 0) : hcd.ret ≠ 0 := by
  intro hret
  refine herr ?_
  by_cases hb : u.NoBounce
  · simp [ehciRtsMapUrbForDma, allocDmaAlignedBuffer, if_pos hb, usbHcdMapUrbForDma, hret]
  · cases kmalloc with
    | none => exact absurd ⟨hb, rfl⟩ h
    | some kmallocPtr =>
      simp [ehciRtsMapUrbForDma, allocDmaAlignedBuffer, if_neg hb, usbHcdMapUrbForDma, hret]

theorem ehciRtsMapUrbForDma_of_noBounce (hb : u.NoBounce) (hundo : MapUndone mapMask hcd)
    (hret : hcd.ret ≠ 0) :
    ehciRtsMapUrbForDma hdr mapMask kmalloc hcd m u = (hcd.ret, freeDmaAlignedBuffer hdr m u) := by
  simp [ehciRtsMapUrbForDma, allocDmaAlignedBuffer, if_pos hb, usbHcdMapUrbForDma_of_failed hundo,
    hret]

/-- **The bounce buffer is given back.**  After the failure the URB has its own buffer again, the
bounce buffer is freed, and an IN transfer has the caller's bytes overwritten with those of the
bounce buffer. -/
theorem ehciRtsMapUrbForDma_of_bounce (hdr : Nat) (kmallocPtr : Nat) (m : Memory)
    (hb : ¬ u.NoBounce) (hundo : MapUndone mapMask hcd) (hret : hcd.ret ≠ 0) :
    ∃ m', ehciRtsMapUrbForDma hdr mapMask (some kmallocPtr) hcd m u =
        (hcd.ret, m', { u with flags := { u.flags with alignedTempBuffer := false } }) ∧
      m'.freed = m.freed ++ [kmallocPtr] ∧
      ∀ a, m'.bytes a =
        if u.flags.dirIn then
          if u.transferBuffer ≤ a ∧ a < u.transferBuffer + u.transferBufferLength then
            m.bytes (dataOf hdr kmallocPtr + (a - u.transferBuffer))
          else m.bytes a
        else if dataOf hdr kmallocPtr ≤ a ∧
            a < dataOf hdr kmallocPtr + u.transferBufferLength then
          m.bytes (u.transferBuffer + (a - dataOf hdr kmallocPtr))
        else m.bytes a := by
  obtain ⟨-, -, hdma⟩ := Urb.of_not_noBounce hb
  cases hdir : u.flags.dirIn <;>
    simp only [ehciRtsMapUrbForDma, allocDmaAlignedBuffer, if_neg hb,
      usbHcdMapUrbForDma_of_failed hundo hret, freeDmaAlignedBuffer, hdir, hdma, hret,
      Memory.memcpy, Function.update_self, ne_eq, not_true_eq_false, not_false_eq_true, if_true,
      if_false, Bool.not_true, Bool.not_false, Bool.or_false, Bool.false_eq_true] <;>
    exact ⟨_, rfl, rfl, fun _ => rfl⟩

/-! ## What the caller keeps -/

theorem untouched_freeDmaAlignedBuffer_iff :
    Untouched m u (freeDmaAlignedBuffer hdr m u).1 (freeDmaAlignedBuffer hdr m u).2 ↔
      FlagClear u := by
  constructor
  · intro h halign
    by_contra hdma
    have hflags := h.flags
    rw [freeDmaAlignedBuffer_flags (Bool.eq_false_iff.mpr hdma)] at hflags
    exact Bool.noConfusion ((congrArg TransferFlags.alignedTempBuffer hflags).trans halign)
  · intro h
    have hkeep : u.flags.alignedTempBuffer = false ∨ u.flags.noTransferDmaMap = true := by
      cases halign : u.flags.alignedTempBuffer with
      | false => exact Or.inl rfl
      | true => exact Or.inr (h halign)
    rw [freeDmaAlignedBuffer_of_keep hkeep]
    exact Untouched.refl m u

theorem Urb.inBuffer_iff (hb : ¬ u.NoBounce) {a : Nat} :
    u.InBuffer a ↔ u.transferBuffer ≤ a ∧ a < u.transferBuffer + u.transferBufferLength := by
  obtain ⟨hsgs, hsg, hdma⟩ := Urb.of_not_noBounce hb
  unfold InBuffer
  rw [Urb.target_eq hsgs hsg hdma]
  constructor
  · rintro ⟨i, hi, rfl | rfl⟩ <;> exact ⟨Nat.le_add_right _ _, Nat.add_lt_add_left hi _⟩
  · rintro ⟨hle, hlt⟩
    obtain ⟨i, rfl⟩ := Nat.exists_eq_add_of_le hle
    exact ⟨i, Nat.lt_of_add_lt_add_left hlt, Or.inl rfl⟩

/-- With a bounce buffer, the flag has to be clear as well, and the bounce buffer of an IN transfer
to hold the caller's bytes already. -/
theorem untouched_iff_of_bounce (hb : ¬ u.NoBounce) (hfresh : KmallocOk hdr (some kmallocPtr) u)
    (hundo : MapUndone mapMask hcd) (hret : hcd.ret ≠ 0) :
    Untouched m u (ehciRtsMapUrbForDma hdr mapMask (some kmallocPtr) hcd m u).2.1
        (ehciRtsMapUrbForDma hdr mapMask (some kmallocPtr) hcd m u).2.2 ↔
      FlagClear u ∧ FreshAgrees hdr (some kmallocPtr) (fun _ => none) m u := by
  obtain ⟨-, -, hdma⟩ := Urb.of_not_noBounce hb
  obtain ⟨m', heq, -, hbytes⟩ := ehciRtsMapUrbForDma_of_bounce hdr kmallocPtr m hb hundo hret
  rw [heq]
  constructor
  · intro h
    constructor
    · intro halign
      exact Bool.noConfusion ((congrArg TransferFlags.alignedTempBuffer h.flags).trans halign)
    · rintro - hdir _ ⟨⟩ i hi -
      have hin : u.transferBuffer ≤ u.transferBuffer + i ∧
          u.transferBuffer + i < u.transferBuffer + u.transferBufferLength := by omega
      have hbyte := h.bytes _ ((Urb.inBuffer_iff hb).mpr hin)
      rwa [hbytes, if_pos hdir, if_pos hin, Nat.add_sub_cancel_left] at hbyte
  · rintro ⟨hclear, hagree⟩
    have halign : u.flags.alignedTempBuffer = false :=
      Bool.eq_false_iff.mpr fun halign => Bool.noConfusion (hdma.symm.trans (hclear halign))
    refine ⟨rfl, ?_, fun a ha => ?_⟩
    · show { u.flags with alignedTempBuffer := false } = u.flags
      rw [← halign]
    · have hin := (Urb.inBuffer_iff hb).mp ha
      rw [hbytes]
      cases hdir : u.flags.dirIn with
      | true =>
        rw [if_pos rfl, if_pos hin]
        obtain ⟨i, rfl⟩ := Nat.exists_eq_add_of_le hin.1
        rw [Nat.add_sub_cancel_left]
        exact hagree hb hdir kmallocPtr rfl i (Nat.lt_of_add_lt_add_left hin.2) rfl
      | false =>
        -- The copy went to the bounce buffer, which is not in the caller's.
        obtain ⟨i, rfl⟩ := Nat.exists_eq_add_of_le hin.1
        have hapart := not_allocated_buffer hfresh (Nat.lt_of_add_lt_add_left hin.2)
        rw [if_neg Bool.false_ne_true, if_neg (not_mem_data hb hapart)]

/-- **Failures.**  A mapping that fails leaves the URB's buffer and flags and every byte of the
caller's buffer as they were just when there was no memory for a bounce buffer, or when the URB did
not come with the flag of one and, for an IN transfer, the bytes of the fresh buffer happen to be
those of the caller's. -/
theorem mapFailure_iff (hfresh : KmallocOk hdr kmalloc u) (hundo : MapUndone mapMask hcd)
    (herr : (ehciRtsMapUrbForDma hdr mapMask kmalloc hcd m u).1 ≠ 0) :
    Untouched m u (ehciRtsMapUrbForDma hdr mapMask kmalloc hcd m u).2.1
        (ehciRtsMapUrbForDma hdr mapMask kmalloc hcd m u).2.2 ↔
      AllocFails kmalloc u ∨ FlagClear u ∧ FreshAgrees hdr kmalloc (fun _ => none) m u := by
  by_cases hfails : AllocFails kmalloc u
  · rw [ehciRtsMapUrbForDma_of_allocFails hfails]
    exact ⟨fun _ => Or.inl hfails, fun _ => Untouched.refl m u⟩
  · rw [or_iff_right hfails]
    have hret := ret_ne_zero_of_failed hfails herr
    by_cases hb : u.NoBounce
    · rw [ehciRtsMapUrbForDma_of_noBounce hb hundo hret, untouched_freeDmaAlignedBuffer_iff]
      exact (and_iff_left fun hne => absurd hb hne).symm
    · cases kmalloc with
      | none => exact absurd ⟨hb, rfl⟩ hfails
      | some kmallocPtr => exact untouched_iff_of_bounce hb hfresh hundo hret

/-- The OUT transfer of the same buffer. -/
def shortOut : Urb := { shortIn with flags := { shortIn.flags with dirIn := false } }

/-- The mapping of an OUT transfer that fails with `-EAGAIN` is undone. -/
theorem mapFailure_iff_shortOut :
    (ehciRtsMapUrbForDma 16 0 (some 1000) ⟨-11, 0⟩ heapMemory shortOut).1 = -11 ∧
      Untouched heapMemory shortOut
        (ehciRtsMapUrbForDma 16 0 (some 1000) ⟨-11, 0⟩ heapMemory shortOut).2.1
        (ehciRtsMapUrbForDma 16 0 (some 1000) ⟨-11, 0⟩ heapMemory shortOut).2.2 := by
  have hfresh : KmallocOk 16 (some 1000) shortOut := by
    rintro _ ⟨⟩
    exact Or.inr (by decide)
  have hret : (ehciRtsMapUrbForDma 16 0 (some 1000) ⟨-11, 0⟩ heapMemory shortOut).1 = -11 := by
    decide +kernel
  refine ⟨hret,
    (mapFailure_iff hfresh (fun _ => by decide) (by rw [hret]; decide)).mpr (Or.inr ⟨nofun, nofun⟩)⟩

/-- The same failure of an IN transfer: the caller's first byte was 1, and is now what the heap
had. -/
theorem not_untouched_shortIn :
    KmallocOk 16 (some 1000) shortIn ∧ MapUndone 0 ⟨-11, 0⟩ ∧
      (ehciRtsMapUrbForDma 16 0 (some 1000) ⟨-11, 0⟩ heapMemory shortIn).1 = -11 ∧
      (ehciRtsMapUrbForDma 16 0 (some 1000) ⟨-11, 0⟩ heapMemory shortIn).2.1.bytes 1 = 170 ∧
      ¬ Untouched heapMemory shortIn
        (ehciRtsMapUrbForDma 16 0 (some 1000) ⟨-11, 0⟩ heapMemory shortIn).2.1
        (ehciRtsMapUrbForDma 16 0 (some 1000) ⟨-11, 0⟩ heapMemory shortIn).2.2 := by
  have hbyte :
      (ehciRtsMapUrbForDma 16 0 (some 1000) ⟨-11, 0⟩ heapMemory shortIn).2.1.bytes 1 = 170 := by
    decide +kernel
  refine ⟨kmallocOk_shortIn, fun _ => by decide, by decide +kernel, hbyte, fun h => ?_⟩
  have hkept := h.bytes 1 ⟨0, by decide, Or.inl rfl⟩
  rw [hbyte] at hkept
  exact absurd hkept (by decide)

end RealtekIpcam.Ehci
