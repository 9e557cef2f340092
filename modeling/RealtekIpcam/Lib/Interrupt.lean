import Mathlib.Data.List.Nodup

/-!
# Interrupt status words

A handler reads a word with one bit for each of its sources, goes through the bits that are set, and
says in the end whether the interrupt was one of its own.
-/

namespace Interrupt

/-- `irqreturn_t`. -/
inductive IrqReturn where
  | none | handled
  deriving DecidableEq

/-- The positions that `for_each_set_bit` goes through. -/
def setBits (val : BitVec 32) : List Nat := (List.range 32).filter val.getLsbD

theorem mem_setBits {val : BitVec 32} {bit : Nat} :
    bit ∈ setBits val ↔ bit < 32 ∧ val.getLsbD bit = true := by
  unfold setBits
  rw [List.mem_filter, List.mem_range]

theorem setBits_zero : setBits 0#32 = [] := by decide

theorem nodup_setBits (val : BitVec 32) : (setBits val).Nodup := List.nodup_range.filter _

end Interrupt
