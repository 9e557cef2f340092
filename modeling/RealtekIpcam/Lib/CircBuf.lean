import Mathlib

/-!
# Circular buffers

A circular buffer of `2 ^ k` cells with two indices that wrap by masking: values are put in at
`head` and taken out at `tail`, and the buffer is empty when the two meet, so one cell always stays
free.  Its contents are the list of the cells from `tail` to `head`.  `contents_put` and
`contents_get` say that the operations are those of a queue.
-/

/-- A circular buffer of `2 ^ k` cells, with its indices in range. -/
structure CircBuf (α : Type*) (k : Nat) where
  buf : Nat → α
  head : Nat
  tail : Nat
  head_lt : head < 2 ^ k
  tail_lt : tail < 2 ^ k

namespace CircBuf

variable {α : Type*} {k : Nat} (c : CircBuf α k)

/-- The index after `i`. -/
def next (k i : Nat) : Nat := (i + 1) &&& (2 ^ k - 1)

/-- How many values are in the buffer. -/
def pending : Nat := (c.head + 2 ^ k - c.tail) &&& (2 ^ k - 1)

/-- The values in the buffer, oldest first. -/
def contents : List α := (List.range c.pending).map fun i => c.buf ((c.tail + i) % 2 ^ k)

/-- The value that is taken out next. -/
def front : α := c.buf c.tail

/-! ## Indices -/

theorem next_eq {i : Nat} (hi : i < 2 ^ k) : next k i = if i + 1 = 2 ^ k then 0 else i + 1 := by
  rw [next, Nat.and_two_pow_sub_one_eq_mod]
  split
  · rename_i h
    rw [h, Nat.mod_self]
  · exact Nat.mod_eq_of_lt (by omega)

theorem next_lt {i : Nat} : next k i < 2 ^ k := by
  rw [next, Nat.and_two_pow_sub_one_eq_mod]
  exact Nat.mod_lt _ (Nat.two_pow_pos k)

theorem pending_eq :
    c.pending = if c.tail ≤ c.head then c.head - c.tail else c.head + 2 ^ k - c.tail := by
  have hh := c.head_lt
  have ht := c.tail_lt
  rw [pending, Nat.and_two_pow_sub_one_eq_mod]
  split
  · rw [show c.head + 2 ^ k - c.tail = c.head - c.tail + 2 ^ k by omega, Nat.add_mod_right]
    exact Nat.mod_eq_of_lt (by omega)
  · exact Nat.mod_eq_of_lt (by omega)

/-- The place of the value with a number, as it wraps. -/
theorem cell_eq {i : Nat} (hi : i < 2 ^ k) :
    (c.tail + i) % 2 ^ k = if c.tail + i < 2 ^ k then c.tail + i else c.tail + i - 2 ^ k := by
  have ht := c.tail_lt
  split
  · rename_i h
    exact Nat.mod_eq_of_lt h
  · rw [Nat.mod_eq_sub_mod (by omega)]
    exact Nat.mod_eq_of_lt (by omega)

@[simp] theorem length_contents : c.contents.length = c.pending := by
  rw [contents, List.length_map, List.length_range]

/-! ## The queue -/

variable {c}

theorem contents_eq_nil_iff : c.contents = [] ↔ c.head = c.tail := by
  have hh := c.head_lt
  have ht := c.tail_lt
  rw [← List.length_eq_zero_iff, length_contents, pending_eq]
  split <;> omega

variable (c)

def put (a : α) : CircBuf α k where
  buf := fun i => if i = c.head then a else c.buf i
  head := next k c.head
  tail := c.tail
  head_lt := next_lt
  tail_lt := c.tail_lt

/-- Take the next value out. -/
def get : CircBuf α k where
  buf := c.buf
  head := c.head
  tail := next k c.tail
  head_lt := c.head_lt
  tail_lt := next_lt

variable {c}

theorem pending_put (a : α) (h : c.pending + 1 < 2 ^ k) : (c.put a).pending = c.pending + 1 := by
  have hh := c.head_lt
  have ht := c.tail_lt
  have hput : (c.put a).pending =
      if c.tail ≤ next k c.head then next k c.head - c.tail
      else next k c.head + 2 ^ k - c.tail := pending_eq _
  rw [pending_eq] at h
  rw [hput, next_eq hh, pending_eq c]
  split at h
  · split <;> split <;> omega
  · split <;> split <;> omega

theorem pending_get (h : c.head ≠ c.tail) : c.get.pending + 1 = c.pending := by
  have hh := c.head_lt
  have ht := c.tail_lt
  have hget : c.get.pending =
      if next k c.tail ≤ c.head then c.head - next k c.tail
      else c.head + 2 ^ k - next k c.tail := pending_eq _
  rw [hget, next_eq ht, pending_eq c]
  split <;> split <;> split <;> omega

/-- **Putting a value in appends it**, when there is space. -/
theorem contents_put (a : α) (h : c.pending + 1 < 2 ^ k) :
    (c.put a).contents = c.contents ++ [a] := by
  have hh := c.head_lt
  have ht := c.tail_lt
  have hpend := c.pending_eq
  rw [contents, pending_put a h, List.range_succ, List.map_append, List.map_singleton, contents]
  congr 1
  · refine List.map_congr_left fun i hi => ?_
    rw [List.mem_range] at hi
    have hne : (c.tail + i) % 2 ^ k ≠ c.head := by
      rw [cell_eq c (by omega)]
      split at hpend <;> split <;> omega
    exact if_neg hne
  · have heq : (c.tail + c.pending) % 2 ^ k = c.head := by
      rw [cell_eq c (by omega)]
      split at hpend <;> split <;> omega
    exact congrArg (· :: []) (if_pos heq)

/-- **Taking a value out removes the oldest one.** -/
theorem contents_get (h : c.head ≠ c.tail) : c.contents = c.front :: c.get.contents := by
  have ht := c.tail_lt
  rw [contents, ← pending_get h, List.range_succ_eq_map, List.map_cons, List.map_map, contents]
  congr 1
  · rw [front, Nat.add_zero, Nat.mod_eq_of_lt ht]
  · refine List.map_congr_left fun i _ => ?_
    show c.buf ((c.tail + (i + 1)) % 2 ^ k) = c.buf ((next k c.tail + i) % 2 ^ k)
    rw [next, Nat.and_two_pow_sub_one_eq_mod, Nat.mod_add_mod, Nat.add_assoc, Nat.add_comm 1 i]

/-- Putting a list of values in, when there is space for all of them. -/
theorem contents_foldl_put (l : List α) (h : c.pending + l.length < 2 ^ k) :
    (l.foldl put c).contents = c.contents ++ l := by
  induction l generalizing c with
  | nil => exact (List.append_nil _).symm
  | cons a l ih =>
    rw [List.length_cons] at h
    have hput := contents_put a (show c.pending + 1 < 2 ^ k by omega)
    have hpend := pending_put a (show c.pending + 1 < 2 ^ k by omega)
    rw [List.foldl_cons, ih (by omega), hput, List.append_assoc]
    rfl

end CircBuf
