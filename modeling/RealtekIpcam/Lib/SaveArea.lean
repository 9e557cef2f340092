import Mathlib.Data.List.Nodup

/-!
# Registers saved and restored

Entry code saves registers one after the other, each in its own word of memory, and loads them back
on the way out.  `save` and `restore` are the two rows of instructions: `addr` says where the word
of a register is, and the list which registers are meant, in the order of the code.

What a row of stores leaves in memory is known from its addresses alone, `save_apply` and
`save_of_ne`, and a row of loads gives every register of the list what memory has for it,
`restore_of_mem`.
-/

namespace SaveArea

open Function

variable {ρ α β : Type*} [DecidableEq ρ] [DecidableEq α]

/-- The registers of the list are stored. -/
def save (addr : ρ → α) (x : ρ → β) (l : List ρ) (mem : α → β) : α → β :=
  l.foldl (fun mem r => update mem (addr r) (x r)) mem

/-- The registers of the list are loaded. -/
def restore (addr : ρ → α) (mem : α → β) (l : List ρ) (x : ρ → β) : ρ → β :=
  l.foldl (fun x r => update x r (mem (addr r))) x

variable {addr : ρ → α} {x : ρ → β} {l : List ρ} {mem : α → β} {r : ρ} {a : α}

omit [DecidableEq ρ] in
theorem save_of_ne (h : ∀ r ∈ l, addr r ≠ a) : save addr x l mem a = mem a := by
  induction l generalizing mem with
  | nil => rfl
  | cons s l ih =>
    have hs := h s List.mem_cons_self
    rw [save, List.foldl_cons]
    exact (ih fun r hr => h r (List.mem_cons_of_mem s hr)).trans (update_of_ne hs.symm ..)

omit [DecidableEq ρ] in
/-- Registers with places of their own are all stored. -/
theorem save_apply (hinj : ∀ s ∈ l, addr s = addr r → s = r) (hr : r ∈ l) :
    save addr x l mem (addr r) = x r := by
  induction l generalizing mem with
  | nil => cases hr
  | cons s l ih =>
    rw [save, List.foldl_cons]
    by_cases hrl : r ∈ l
    · exact ih (fun t ht => hinj t (List.mem_cons_of_mem s ht)) hrl
    · obtain rfl := (List.mem_cons.mp hr).resolve_right hrl
      refine (save_of_ne fun t ht heq => hrl ?_).trans (update_self ..)
      exact hinj t (List.mem_cons_of_mem r ht) heq ▸ ht

omit [DecidableEq α] in
theorem restore_of_notMem (h : r ∉ l) : restore addr mem l x r = x r := by
  induction l generalizing x with
  | nil => rfl
  | cons s l ih =>
    rw [List.mem_cons, not_or] at h
    rw [restore, List.foldl_cons]
    exact (ih h.2).trans (update_of_ne h.1 ..)

omit [DecidableEq α] in
theorem restore_of_mem (h : r ∈ l) : restore addr mem l x r = mem (addr r) := by
  induction l generalizing x with
  | nil => cases h
  | cons s l ih =>
    rw [restore, List.foldl_cons]
    by_cases hrl : r ∈ l
    · exact ih hrl
    · obtain rfl := (List.mem_cons.mp h).resolve_right hrl
      exact (restore_of_notMem hrl).trans (update_self ..)

end SaveArea
