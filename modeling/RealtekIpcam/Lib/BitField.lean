import Mathlib.Data.List.Basic

/-!
# Bit fields of registers

A register file is a function from offsets to 32-bit words.  Drivers change it by read-modify-write:
they set or clear one bit, or replace a field of some width at some offset.  Everything that has to
be known about these operations is what they do to a single bit, and that is what the lemmas say.

A `FieldWrite` is one replacement of a field, and `writes` a row of them.  `lastBit` reads off the
row what it does to a bit, `none` when it leaves the bit alone: `getLsbD_writes`.
-/

namespace BitField

abbrev Regs := Nat → BitVec 32

def setBit (v : BitVec 32) (n : Nat) : BitVec 32 := v ||| 1#32 <<< n

def clearBit (v : BitVec 32) (n : Nat) : BitVec 32 := v &&& ~~~(1#32 <<< n)

/-- The lowest `width` bits. -/
def fieldMask (width : Nat) : BitVec 32 := 1#32 <<< width - 1#32

def getField (val : BitVec 32) (width offset : Nat) : BitVec 32 :=
  val >>> offset &&& fieldMask width

/-- A word with one field replaced. -/
def setField (reg field : BitVec 32) (width offset : Nat) : BitVec 32 :=
  reg &&& ~~~(fieldMask width <<< offset) ||| (field &&& fieldMask width) <<< offset

/-! ## Single bits -/

variable {v reg field : BitVec 32} {n i width offset : Nat}

/-- The word, of any width, with one bit set. -/
theorem getLsbD_one_shiftLeft {w : Nat} (hi : i < w) :
    (1#w <<< n).getLsbD i = decide (i = n) := by
  rw [BitVec.getLsbD_shiftLeft, BitVec.getLsbD_one]
  by_cases h : i = n
  · subst h
    simp [hi, Nat.zero_lt_of_lt hi]
  · by_cases hlt : i < n
    · simp [hi, hlt, h]
    · have hne : ¬ i - n = 0 := by omega
      simp [hi, hlt, h, hne]

theorem getLsbD_setBit (hi : i < 32) :
    (setBit v n).getLsbD i = if i = n then true else v.getLsbD i := by
  unfold setBit
  rw [BitVec.getLsbD_or, getLsbD_one_shiftLeft hi]
  split <;> simp [*]

theorem getLsbD_clearBit (hi : i < 32) :
    (clearBit v n).getLsbD i = if i = n then false else v.getLsbD i := by
  unfold clearBit
  rw [BitVec.getLsbD_and, BitVec.getLsbD_not, getLsbD_one_shiftLeft hi]
  split <;> simp [*]

theorem clearBit_zero (n : Nat) : clearBit 0 n = 0 := BitVec.zero_and

theorem getLsbD_fieldMask (hw : width < 32) :
    (fieldMask width).getLsbD i = decide (i < width) := by
  have hpos : 0 < 2 ^ width := Nat.two_pow_pos width
  have hlt : 2 ^ width < 2 ^ 32 := Nat.pow_lt_pow_right (by decide) hw
  have hval : (fieldMask width).toNat = 2 ^ width - 1 := by
    unfold fieldMask
    rw [BitVec.toNat_sub, BitVec.toNat_shiftLeft, BitVec.toNat_ofNat, Nat.shiftLeft_eq,
      Nat.mod_eq_of_lt (by decide : 1 < 2 ^ 32), Nat.one_mul, Nat.mod_eq_of_lt hlt]
    omega
  rw [BitVec.getLsbD, hval, Nat.testBit_two_pow_sub_one]

theorem getLsbD_getField (hw : width < 32) :
    (getField v width offset).getLsbD i = (decide (i < width) && v.getLsbD (offset + i)) := by
  unfold getField
  rw [BitVec.getLsbD_and, getLsbD_fieldMask hw, BitVec.getLsbD_ushiftRight, Bool.and_comm]

theorem getLsbD_setField (hw : width < 32) (hi : i < 32) :
    (setField reg field width offset).getLsbD i =
      if offset ≤ i ∧ i < offset + width then field.getLsbD (i - offset) else reg.getLsbD i := by
  unfold setField
  rw [BitVec.getLsbD_or, BitVec.getLsbD_and, BitVec.getLsbD_not, BitVec.getLsbD_shiftLeft,
    BitVec.getLsbD_shiftLeft, BitVec.getLsbD_and, getLsbD_fieldMask hw]
  by_cases hlo : offset ≤ i
  · have hnot : ¬ i < offset := Nat.not_lt.mpr hlo
    by_cases hhi : i < offset + width
    · have hin : i - offset < width := by omega
      simp [hi, hlo, hhi, hin, hnot]
    · have hout : ¬ i - offset < width := by omega
      simp [hi, hhi, hout, hnot]
  · simp [hi, hlo, Nat.lt_of_not_le hlo]

theorem getField_one : getField v 1 n = if v.getLsbD n then 1 else 0 := by
  apply BitVec.eq_of_getLsbD_eq
  intro i _
  rw [getLsbD_getField (by decide)]
  by_cases hi : i < 1
  · obtain rfl : i = 0 := by omega
    cases v.getLsbD n <;> simp
  · have hne : ¬ i = 0 := by omega
    cases v.getLsbD n <;> simp [hi, hne]

theorem getField_eq_getField {u : BitVec 32} {off : Nat} (hw : width < 32) :
    getField v width offset = getField u width off ↔
      ∀ i < width, v.getLsbD (offset + i) = u.getLsbD (off + i) := by
  constructor
  · intro h i hi
    have hbit := congrArg (BitVec.getLsbD · i) h
    simpa only [getLsbD_getField hw, hi, decide_true, Bool.true_and] using hbit
  · intro h
    apply BitVec.eq_of_getLsbD_eq
    intro i _
    rw [getLsbD_getField hw, getLsbD_getField hw]
    by_cases hi : i < width
    · rw [h i hi]
    · simp only [hi, decide_false, Bool.false_and]

/-- A field has the value `field`, which is no wider. -/
theorem getField_eq_iff (hw : width < 32) (hfit : field &&& fieldMask width = field) :
    getField v width offset = field ↔ ∀ i < width, v.getLsbD (offset + i) = field.getLsbD i := by
  have hfield : field = getField field width 0 := by
    unfold getField
    rw [BitVec.ushiftRight_zero, hfit]
  rw [hfield, getField_eq_getField hw, ← hfield]
  simp only [Nat.zero_add]

/-! ## Rows of field writes -/

/-- The replacement of a field of a register. -/
structure FieldWrite where
  reg : Nat
  field : BitVec 32
  width : Nat
  offset : Nat
  deriving DecidableEq

/-- Do one read-modify-write. -/
def write (regs : Regs) (w : FieldWrite) : Regs :=
  Function.update regs w.reg (setField (regs w.reg) w.field w.width w.offset)

/-- Do a row of them. -/
def writes (regs : Regs) (ws : List FieldWrite) : Regs := ws.foldl write regs

/-- The write replaces this bit of this register. -/
def FieldWrite.Covers (w : FieldWrite) (r i : Nat) : Prop :=
  w.reg = r ∧ w.offset ≤ i ∧ i < w.offset + w.width
  deriving Decidable

/-- What a row of writes makes of a bit, `none` when no write covers it. -/
def lastBit : List FieldWrite → Nat → Nat → Option Bool
  | [], _, _ => none
  | w :: ws, r, i =>
    (lastBit ws r i).or (if w.Covers r i then some (w.field.getLsbD (i - w.offset)) else none)

variable {regs : Regs} {r : Nat}

/-- **A bit of a field**, if every write is at the place of the field or apart from it, and those at
its place are one: it is that of the write at the place, if this is wide enough. -/
theorem lastBit_of_apart {ws : List FieldWrite} {offset width : Nat} (hi : i < width)
    (hapart : ∀ w ∈ ws, w.reg = r →
      w.offset = offset ∨ w.offset + w.width ≤ offset ∨ offset + width ≤ w.offset)
    (hone : ∀ v ∈ ws, ∀ w ∈ ws, v.reg = r ∧ v.offset = offset → w.reg = r ∧ w.offset = offset →
      v = w) :
    lastBit ws r (offset + i) =
      (ws.find? fun w => decide (w.reg = r ∧ w.offset = offset)).bind fun w =>
        if i < w.width then some (w.field.getLsbD i) else none := by
  induction ws with
  | nil => rfl
  | cons w ws ih =>
    have ih' := ih (fun x hx => hapart x (List.mem_cons_of_mem w hx))
      fun x hx y hy => hone x (List.mem_cons_of_mem w hx) y (List.mem_cons_of_mem w hy)
    rw [lastBit, ih']
    by_cases hw : w.reg = r ∧ w.offset = offset
    · have hcovers : w.Covers r (offset + i) ↔ i < w.width := by
        obtain ⟨rfl, rfl⟩ := hw
        exact ⟨fun h => by have := h.2.2; omega, fun h => ⟨rfl, by omega, by omega⟩⟩
      rw [List.find?_cons_of_pos (by simpa using hw), Option.bind_some]
      cases hfind : ws.find? fun w => decide (w.reg = r ∧ w.offset = offset) with
      | none => simp [hcovers, hw.2]
      | some v =>
        -- a later write at the place is the same
        have hv := List.find?_some
          (p := fun w : FieldWrite => decide (w.reg = r ∧ w.offset = offset)) hfind
        obtain rfl := hone w List.mem_cons_self v
          (List.mem_cons_of_mem w (List.mem_of_find?_eq_some hfind)) hw (of_decide_eq_true hv)
        by_cases hlt : i < w.width
        · simp [hlt]
        · simp [hlt, hcovers]
    · have hcovers : ¬ w.Covers r (offset + i) := fun h => by
        obtain ⟨hreg, hle, hlt⟩ := h
        have happart := hapart w List.mem_cons_self hreg
        have hne : w.offset ≠ offset := fun heq => hw ⟨hreg, heq⟩
        omega
      rw [List.find?_cons_of_neg (by simpa using hw), if_neg hcovers, Option.or_none]

theorem getLsbD_write {w : FieldWrite} (hw : w.width < 32) (hi : i < 32) :
    (write regs w r).getLsbD i =
      if w.Covers r i then w.field.getLsbD (i - w.offset) else (regs r).getLsbD i := by
  unfold write
  by_cases hr : w.reg = r
  · subst hr
    rw [Function.update_self, getLsbD_setField hw hi]
    by_cases hin : w.offset ≤ i ∧ i < w.offset + w.width
    · rw [if_pos hin, if_pos ⟨rfl, hin⟩]
    · rw [if_neg hin, if_neg fun h => hin h.2]
  · rw [Function.update_of_ne (Ne.symm hr), if_neg fun h => hr h.1]

/-- **A row of writes, bit by bit.** -/
theorem getLsbD_writes {ws : List FieldWrite} (hws : ∀ w ∈ ws, w.width < 32) (hi : i < 32) :
    (writes regs ws r).getLsbD i = (lastBit ws r i).getD ((regs r).getLsbD i) := by
  induction ws generalizing regs with
  | nil => rfl
  | cons w ws ih =>
    have hw := hws w List.mem_cons_self
    show (writes (write regs w) ws r).getLsbD i = _
    rw [ih fun x hx => hws x (List.mem_cons_of_mem w hx), getLsbD_write hw hi, lastBit]
    cases lastBit ws r i with
    | some b => rfl
    | none => split <;> rfl

section AnyWidth

variable {w : Nat}

/-- A word with one bit replaced. -/
def putBit (v : BitVec w) (n : Nat) (b : Bool) : BitVec w :=
  v &&& ~~~(1#w <<< n) ||| if b then 1#w <<< n else 0#w

@[simp] theorem getLsbD_putBit {v : BitVec w} {n i : Nat} {b : Bool} (hi : i < w) :
    (putBit v n b).getLsbD i = if i = n then b else v.getLsbD i := by
  unfold putBit
  rw [BitVec.getLsbD_or, BitVec.getLsbD_and, BitVec.getLsbD_not, getLsbD_one_shiftLeft hi]
  cases b with
  | false =>
    rw [if_neg Bool.false_ne_true, BitVec.getLsbD_zero]
    by_cases h : i = n <;> simp [h, hi]
  | true =>
    rw [if_pos rfl, getLsbD_one_shiftLeft hi]
    by_cases h : i = n <;> simp [h, hi]

theorem putBit_eq_self_iff {v : BitVec w} {n : Nat} {b : Bool} (hn : n < w) :
    putBit v n b = v ↔ v.getLsbD n = b := by
  constructor
  · intro h
    rw [← h, getLsbD_putBit hn, if_pos rfl]
  · intro h
    apply BitVec.eq_of_getLsbD_eq
    intro i hi
    rw [getLsbD_putBit hi]
    split
    · next heq => rw [heq, h]
    · rfl

theorem and_one_shiftLeft_ne_zero {v : BitVec w} {n : Nat} (hn : n < w) :
    v &&& 1#w <<< n ≠ 0#w ↔ v.getLsbD n = true := by
  rw [not_iff_comm, Bool.not_eq_true]
  constructor
  · intro hbit
    apply BitVec.eq_of_getLsbD_eq
    intro i hi
    rw [BitVec.getLsbD_and, getLsbD_one_shiftLeft hi, BitVec.getLsbD_zero]
    by_cases h : i = n
    · rw [h, hbit, Bool.false_and]
    · rw [decide_eq_false h, Bool.and_false]
  · intro hzero
    have hbit := congrArg (BitVec.getLsbD · n) hzero
    simpa [getLsbD_one_shiftLeft hn] using hbit

end AnyWidth

end BitField
