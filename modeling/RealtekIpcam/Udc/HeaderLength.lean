import RealtekIpcam.Lib.BitField

/-!
# The header lengths of the two video endpoints

The register `USB_DUMMY0` holds, for each of the video endpoints 5 and 6, the length of the payload
header in an 8-bit field and a flag that switches the header on.  `rts_start_dma_transfer` calls
`rts_usb_write_header_len` with the `meta_len` of every request it starts, and the function packs
the length and the flag by hand.

`Header.Written` says what such a write is for: the endpoint's own length and flag are set, or its
flag is cleared, and those of the other endpoint stay.  The length is shifted into its field without
a limit, so `written_iff` is the answer for which lengths this is what happens.  For a longer header
the two endpoints differ: what does not fit falls out of the register for endpoint 5, and into the
length of endpoint 5 for endpoint 6 (`otherLen_writeHeaderLen_b`).
-/

namespace RealtekIpcam.Udc.Header

open BitField Function

/-! ## The register -/

/-- The two endpoints with a header: `USB_UVCINEPA`, which is endpoint 5, and `USB_UVCINEPB`. -/
inductive UvcEp where
  | a | b
  deriving DecidableEq

namespace UvcEp

/-- The number of the endpoint. -/
def epnum : UvcEp → Nat
  | a => 5
  | b => 6

def other : UvcEp → UvcEp
  | a => b
  | b => a

/-- The position of the flag of an endpoint. -/
def flagBit : UvcEp → Nat
  | a => 15
  | b => 14

/-- The lowest bit of the length of an endpoint. -/
def lenOffset : UvcEp → Nat
  | a => 24
  | b => 16

end UvcEp

/-- `rts_usb_write_header_len`: what it makes of the content of `USB_DUMMY0`. -/
def rtsUsbWriteHeaderLen (len : BitVec 32) (epnum : Nat) (regRead : BitVec 32) : BitVec 32 :=
  if epnum = 5 ∨ epnum = 6 then
    if len > 0 then
      if epnum = 5 then ((len + 12) <<< 24 ||| 0x8000) ||| (regRead &&& 0xff7fff)
      else ((len + 12) <<< 16 ||| 0x4000) ||| (regRead &&& 0xff00bfff)
    else if epnum = 5 then regRead &&& 0xffff7fff
    else regRead &&& 0xffffbfff
  else regRead

variable (reg : BitVec 32) (e : UvcEp) {reg' len : BitVec 32} {i : Nat}

/-- The header of an endpoint is switched on. -/
def flag : Bool := reg.getLsbD e.flagBit

def headerLen : BitVec 8 := reg.extractLsb' e.lenOffset 8

/-- A write for `e` sets its length and flag, or clears its flag, and does nothing else to them or
to those of the other endpoint. -/
structure Written (len : BitVec 32) (e : UvcEp) (reg reg' : BitVec 32) : Prop where
  other_flag : flag reg' e.other = flag reg e.other
  other_len : headerLen reg' e.other = headerLen reg e.other
  set : len ≠ 0 → flag reg' e = true ∧ (headerLen reg' e).toNat = len.toNat + 12
  clear : len = 0 → reg' = clearBit reg e.flagBit

/-! ## Bit by bit -/

theorem bits_keepA :
    ∀ i < 32, (0xff7fff#32).getLsbD i = decide (i ≠ 15 ∧ i < 24) := by
  decide

theorem bits_keepB :
    ∀ i < 32, (0xff00bfff#32).getLsbD i = decide (i ≠ 14 ∧ ¬ (16 ≤ i ∧ i < 24)) := by
  decide

theorem bits_flagA : ∀ i < 32, (0x8000#32).getLsbD i = decide (i = 15) := by
  decide

theorem bits_flagB : ∀ i < 32, (0x4000#32).getLsbD i = decide (i = 14) := by
  decide

theorem pos_of_ne_zero (h : len ≠ 0) : len > 0 := (BitVec.pos_iff_ne_zero len).mpr h

theorem getLsbD_writeHeaderLen_a (h : len ≠ 0) (hi : i < 32) :
    (rtsUsbWriteHeaderLen len 5 reg).getLsbD i =
      if i = 15 then true else if 24 ≤ i then (len + 12).getLsbD (i - 24)
      else reg.getLsbD i := by
  have hwrite : rtsUsbWriteHeaderLen len 5 reg =
      ((len + 12) <<< 24 ||| 0x8000#32) ||| (reg &&& 0xff7fff#32) := by
    unfold rtsUsbWriteHeaderLen
    rw [if_pos (.inl rfl), if_pos (pos_of_ne_zero h), if_pos rfl]
    rfl
  rw [hwrite, BitVec.getLsbD_or, BitVec.getLsbD_or, BitVec.getLsbD_and, BitVec.getLsbD_shiftLeft,
    bits_keepA i hi, bits_flagA i hi]
  by_cases hflag : i = 15
  · simp [hflag]
  · by_cases hlen : 24 ≤ i
    · simp [hflag, hlen, hi, Nat.not_lt.mpr hlen]
    · simp [hflag, hlen, hi, Nat.lt_of_not_le hlen]

/-- The length of endpoint 6 has that of endpoint 5 above it, and what is too long is put there on
top of what the field holds. -/
theorem getLsbD_writeHeaderLen_b (h : len ≠ 0) (hi : i < 32) :
    (rtsUsbWriteHeaderLen len 6 reg).getLsbD i =
      if i = 14 then true
      else if 24 ≤ i then ((len + 12).getLsbD (i - 16) || reg.getLsbD i)
      else if 16 ≤ i then (len + 12).getLsbD (i - 16)
      else reg.getLsbD i := by
  have hwrite : rtsUsbWriteHeaderLen len 6 reg =
      ((len + 12) <<< 16 ||| 0x4000#32) ||| (reg &&& 0xff00bfff#32) := by
    unfold rtsUsbWriteHeaderLen
    rw [if_pos (.inr rfl), if_pos (pos_of_ne_zero h), if_neg (by decide)]
    rfl
  rw [hwrite, BitVec.getLsbD_or, BitVec.getLsbD_or, BitVec.getLsbD_and, BitVec.getLsbD_shiftLeft,
    bits_keepB i hi, bits_flagB i hi]
  by_cases hflag : i = 14
  · simp [hflag]
  · by_cases hlow : 16 ≤ i
    · by_cases hhigh : 24 ≤ i
      · simp [hflag, hlow, hhigh, hi, Nat.not_lt.mpr hlow, Nat.not_lt.mpr hhigh]
      · simp [hflag, hlow, hhigh, hi, Nat.not_lt.mpr hlow, Nat.lt_of_not_le hhigh]
    · have hhigh : ¬ 24 ≤ i := by omega
      simp [hflag, hlow, hhigh, Nat.lt_of_not_le hlow]

theorem writeHeaderLen_zero : rtsUsbWriteHeaderLen 0 e.epnum reg = clearBit reg e.flagBit := by
  cases e with
  | a => rfl
  | b => rfl

/-! ## Flags and lengths -/

theorem getLsbD_headerLen (hi : i < 8) :
    (headerLen reg e).getLsbD i = reg.getLsbD (e.lenOffset + i) := by
  unfold headerLen
  rw [BitVec.getLsbD_extractLsb']
  simp [hi]

theorem own_writeHeaderLen (h : len ≠ 0) :
    flag (rtsUsbWriteHeaderLen len e.epnum reg) e = true ∧
      headerLen (rtsUsbWriteHeaderLen len e.epnum reg) e = (len + 12).setWidth 8 := by
  refine ⟨?_, ?_⟩
  · cases e with
    | a => exact (getLsbD_writeHeaderLen_a reg h (by decide)).trans (if_pos rfl)
    | b => exact (getLsbD_writeHeaderLen_b reg h (by decide)).trans (if_pos rfl)
  · apply BitVec.eq_of_getLsbD_eq
    intro i hi
    rw [getLsbD_headerLen _ _ hi, BitVec.getLsbD_setWidth, decide_eq_true hi, Bool.true_and]
    cases e with
    | a =>
      show (rtsUsbWriteHeaderLen len 5 reg).getLsbD (24 + i) = _
      rw [getLsbD_writeHeaderLen_a reg h (by omega), if_neg (by omega), if_pos (by omega),
        Nat.add_sub_cancel_left]
    | b =>
      show (rtsUsbWriteHeaderLen len 6 reg).getLsbD (16 + i) = _
      rw [getLsbD_writeHeaderLen_b reg h (by omega), if_neg (by omega), if_neg (by omega),
        if_pos (by omega), Nat.add_sub_cancel_left]

theorem otherFlag_writeHeaderLen (h : len ≠ 0) :
    flag (rtsUsbWriteHeaderLen len e.epnum reg) e.other = flag reg e.other := by
  cases e with
  | a =>
    show (rtsUsbWriteHeaderLen len 5 reg).getLsbD 14 = reg.getLsbD 14
    rw [getLsbD_writeHeaderLen_a reg h (by decide), if_neg (by decide), if_neg (by decide)]
  | b =>
    show (rtsUsbWriteHeaderLen len 6 reg).getLsbD 15 = reg.getLsbD 15
    rw [getLsbD_writeHeaderLen_b reg h (by decide), if_neg (by decide), if_neg (by decide),
      if_neg (by decide)]

theorem otherLen_writeHeaderLen_a (h : len ≠ 0) :
    headerLen (rtsUsbWriteHeaderLen len 5 reg) .b = headerLen reg .b := by
  apply BitVec.eq_of_getLsbD_eq
  intro i hi
  rw [getLsbD_headerLen _ _ hi, getLsbD_headerLen _ _ hi]
  show (rtsUsbWriteHeaderLen len 5 reg).getLsbD (16 + i) = reg.getLsbD (16 + i)
  rw [getLsbD_writeHeaderLen_a reg h (by omega), if_neg (by omega), if_neg (by omega)]

theorem otherLen_writeHeaderLen_b (h : len ≠ 0) :
    headerLen (rtsUsbWriteHeaderLen len 6 reg) .a =
      (len + 12).extractLsb' 8 8 ||| headerLen reg .a := by
  apply BitVec.eq_of_getLsbD_eq
  intro i hi
  rw [BitVec.getLsbD_or, BitVec.getLsbD_extractLsb', getLsbD_headerLen _ _ hi,
    getLsbD_headerLen _ _ hi, decide_eq_true hi, Bool.true_and]
  show (rtsUsbWriteHeaderLen len 6 reg).getLsbD (24 + i) = _
  rw [getLsbD_writeHeaderLen_b reg h (by omega), if_neg (by omega), if_pos (by omega),
    show 24 + i - 16 = 8 + i by omega]
  rfl

/-! ## The condition -/

theorem toNat_stored (len : BitVec 32) :
    ((len + 12).setWidth 8).toNat = (len.toNat + 12) % 256 := by
  rw [BitVec.toNat_setWidth, BitVec.toNat_add]
  show (len.toNat + 12) % 4294967296 % 256 = _
  omega

theorem secondByte_eq_zero (h : len.toNat ≤ 243) : (len + 12).extractLsb' 8 8 = 0#8 := by
  apply BitVec.eq_of_toNat_eq
  rw [BitVec.extractLsb'_toNat, BitVec.toNat_add]
  show ((len.toNat + 12) % 4294967296) >>> 8 % 256 = 0
  rw [Nat.shiftRight_eq_div_pow]
  omega

theorem Written.of_le (h : len.toNat ≤ 243) (e : UvcEp) (reg : BitVec 32) :
    Written len e reg (rtsUsbWriteHeaderLen len e.epnum reg) := by
  by_cases hzero : len = 0
  · subst hzero
    have hwrite := writeHeaderLen_zero reg e
    have hbit (n : Nat) (hn : n < 32) (hne : n ≠ e.flagBit) :
        (rtsUsbWriteHeaderLen 0 e.epnum reg).getLsbD n = reg.getLsbD n := by
      rw [hwrite, getLsbD_clearBit hn, if_neg hne]
    refine ⟨?_, ?_, fun hne => absurd rfl hne, fun _ => hwrite⟩
    · cases e with
      | a => exact hbit 14 (by decide) (by decide)
      | b => exact hbit 15 (by decide) (by decide)
    · apply BitVec.eq_of_getLsbD_eq
      intro i hi
      rw [getLsbD_headerLen _ _ hi, getLsbD_headerLen _ _ hi]
      cases e with
      | a => exact hbit (16 + i) (by omega) (show 16 + i ≠ 15 by omega)
      | b => exact hbit (24 + i) (by omega) (show 24 + i ≠ 14 by omega)
  · obtain ⟨hflag, hlen⟩ := own_writeHeaderLen reg e hzero
    refine ⟨otherFlag_writeHeaderLen reg e hzero, ?_, fun _ => ⟨hflag, ?_⟩,
      fun hz => absurd hz hzero⟩
    · cases e with
      | a => exact otherLen_writeHeaderLen_a reg hzero
      | b =>
        show headerLen (rtsUsbWriteHeaderLen len 6 reg) .a = headerLen reg .a
        rw [otherLen_writeHeaderLen_b reg hzero, secondByte_eq_zero h, BitVec.zero_or]
    · rw [hlen, toNat_stored]
      omega

/-- **Header lengths.**  A write does what it is for exactly when the header with its 12 bytes fits
into 8 bits, for every content of the register and both endpoints. -/
theorem written_iff (len : BitVec 32) (e : UvcEp) (reg : BitVec 32) :
    Written len e reg (rtsUsbWriteHeaderLen len e.epnum reg) ↔ len.toNat ≤ 243 := by
  refine ⟨fun h => ?_, fun h => Written.of_le h e reg⟩
  by_cases hzero : len = 0
  · rw [hzero]
    decide
  · obtain ⟨-, hlen⟩ := h.set hzero
    rw [(own_writeHeaderLen reg e hzero).2, toNat_stored] at hlen
    omega

/-- A header of 256 bytes for endpoint 6 is stored as one of no bytes, and endpoint 5 gets one byte
more. -/
theorem not_written_long : ¬ ∀ (len : BitVec 32) (e : UvcEp) (reg : BitVec 32),
    Written len e reg (rtsUsbWriteHeaderLen len e.epnum reg) := by
  intro h
  have hother : headerLen (rtsUsbWriteHeaderLen 244 6 0) .a = headerLen 0 .a :=
    (h 244 .b 0).other_len
  exact absurd hother (by decide)

/-! ## Rows of transfers -/

/-- The header that an endpoint sends: its length, `none` when it is switched off. -/
def view (reg : BitVec 32) (e : UvcEp) : Option Nat :=
  if flag reg e then some (headerLen reg e).toNat else none

/-- The header that a request asks for. -/
def asked (len : BitVec 32) : Option Nat := if len = 0 then none else some (len.toNat + 12)

/-- The register after the transfers of a row of requests, each with its endpoint and `meta_len`. -/
def transfers (reg : BitVec 32) (ops : List (UvcEp × BitVec 32)) : BitVec 32 :=
  ops.foldl (fun reg op => rtsUsbWriteHeaderLen op.2 op.1.epnum reg) reg

/-- The header that an endpoint should send after the transfers, if it sent `v` before. -/
def lastAsked (v : UvcEp → Option Nat) (ops : List (UvcEp × BitVec 32)) : UvcEp → Option Nat :=
  ops.foldl (fun v op => update v op.1 (asked op.2)) v

theorem Written.view (h : Written len e reg reg') :
    view reg' = update (view reg) e (asked len) := by
  funext e'
  by_cases he : e' = e
  · subst he
    rw [update_self]
    unfold Header.view asked
    by_cases hzero : len = 0
    · have hflag : flag reg' e' = false := by
        rw [h.clear hzero]
        unfold flag
        rw [getLsbD_clearBit (by cases e' <;> decide), if_pos rfl]
      rw [hflag, if_pos hzero, if_neg Bool.false_ne_true]
    · obtain ⟨hflag, hlen⟩ := h.set hzero
      rw [hflag, if_pos rfl, if_neg hzero, hlen]
  · rw [update_of_ne he]
    have hother : e' = e.other := by
      cases e <;> cases e' <;> first | rfl | exact absurd rfl he
    unfold Header.view
    rw [hother, h.other_flag, h.other_len]

/-- **The two endpoints do not disturb each other** in any row of transfers with headers that fit:
each sends the header that its last request asked for. -/
theorem view_transfers {ops : List (UvcEp × BitVec 32)} (h : ∀ op ∈ ops, op.2.toNat ≤ 243) :
    view (transfers reg ops) = lastAsked (view reg) ops := by
  induction ops generalizing reg with
  | nil => rfl
  | cons op ops ih =>
    have hop := Written.of_le (h op List.mem_cons_self) op.1 reg
    have hrest := ih (rtsUsbWriteHeaderLen op.2 op.1.epnum reg)
      fun op' hmem => h op' (List.mem_cons_of_mem op hmem)
    rw [hop.view] at hrest
    exact hrest

theorem view_transfers_turns :
    view (transfers 0 [(.a, 20), (.b, 243), (.a, 0), (.a, 5)]) .a = some 17 :=
  (congrFun (view_transfers 0 (by decide)) .a).trans (by decide)

end RealtekIpcam.Udc.Header
