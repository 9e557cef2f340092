import Mathlib.Data.List.Basic

/-!
# NOR flash, byte by byte

A NOR flash is a function from addresses to bytes that changes by two byte operations: erasing sets
every bit of a byte, programming can only clear bits.  A command is a list of byte operations from
the lowest address up, and what a power cut leaves behind is a run of a prefix of the list.

The rules are those of frame reasoning: a byte that no operation addresses stays (`run_of_ne`), so a
span that all operations avoid reads the same (`Within.readBytes_run`), what is erased reads as
ones, and what is programmed after an erase reads back (`readBytes_program_erase`).
-/

namespace NorFlash

open Function

abbrev Flash := Nat → UInt8

/-- What a flash does to one byte. -/
inductive ByteOp where
  | erase (a : Nat)
  | program (a : Nat) (b : UInt8)
  deriving DecidableEq

def ByteOp.addr : ByteOp → Nat
  | .erase a => a
  | .program a _ => a

/-- One byte operation; programming ANDs the new byte into the old one. -/
def apply (f : Flash) : ByteOp → Flash
  | .erase a => update f a 0xff
  | .program a b => update f a (f a &&& b)

/-- A sequence of byte operations. -/
def run (f : Flash) (ops : List ByteOp) : Flash := ops.foldl apply f

/-- The `n` bytes from `a` on. -/
def readBytes (f : Flash) : Nat → Nat → List UInt8
  | _, 0 => []
  | a, n + 1 => f a :: readBytes f (a + 1) n

/-- Erase the `n` bytes from `a` on. -/
def eraseOps : Nat → Nat → List ByteOp
  | _, 0 => []
  | a, n + 1 => .erase a :: eraseOps (a + 1) n

/-- Program the given bytes from `a` on. -/
def programOps : Nat → List UInt8 → List ByteOp
  | _, [] => []
  | a, b :: bs => .program a b :: programOps (a + 1) bs

variable {f g : Flash} {a lo hi n x : Nat} {ops ops' : List ByteOp} {bs : List UInt8}

/-! ## Running and reading -/

theorem run_cons (op : ByteOp) : run f (op :: ops) = run (apply f op) ops := rfl

theorem run_append : run f (ops ++ ops') = run (run f ops) ops' := List.foldl_append

theorem apply_of_ne {op : ByteOp} (h : op.addr ≠ x) : apply f op x = f x := by
  cases op with
  | erase a => exact update_of_ne (Ne.symm h) _ _
  | program a b => exact update_of_ne (Ne.symm h) _ _

/-- A byte that no operation addresses stays. -/
theorem run_of_ne (h : ∀ op ∈ ops, op.addr ≠ x) : run f ops x = f x := by
  induction ops generalizing f with
  | nil => rfl
  | cons op ops ih =>
    rw [run_cons, ih fun op' hop' => h op' (List.mem_cons_of_mem op hop')]
    exact apply_of_ne (h op List.mem_cons_self)

@[simp] theorem length_readBytes : (readBytes f a n).length = n := by
  induction n generalizing a with
  | zero => rfl
  | succ n ih => rw [readBytes, List.length_cons, ih]

theorem readBytes_congr (h : ∀ x, a ≤ x → x < a + n → f x = g x) :
    readBytes f a n = readBytes g a n := by
  induction n generalizing a with
  | zero => rfl
  | succ n ih =>
    rw [readBytes, readBytes, h a (by omega) (by omega),
      ih fun x hlo hhi => h x (by omega) (by omega)]

theorem eq_of_readBytes_eq (h : readBytes f a n = readBytes g a n) (hlo : a ≤ x)
    (hhi : x < a + n) : f x = g x := by
  induction n generalizing a with
  | zero => omega
  | succ n ih =>
    obtain ⟨hhead, htail⟩ := List.cons.inj h
    by_cases hx : a = x
    · rw [← hx]
      exact hhead
    · exact ih htail (by omega) (by omega)

/-! ## Where operations work -/

/-- All operations work on the bytes from `lo` up to `hi`. -/
def Within (lo hi : Nat) (ops : List ByteOp) : Prop :=
  ∀ op ∈ ops, lo ≤ op.addr ∧ op.addr < hi

theorem within_eraseOps : Within a (a + n) (eraseOps a n) := by
  induction n generalizing a with
  | zero => exact nofun
  | succ n ih =>
    intro op hop
    rcases List.mem_cons.mp hop with rfl | hrest
    · exact ⟨Nat.le_refl a, Nat.lt_add_of_pos_right (Nat.succ_pos n)⟩
    · have := ih op hrest
      omega

theorem within_programOps (a : Nat) (bs : List UInt8) :
    Within a (a + bs.length) (programOps a bs) := by
  induction bs generalizing a with
  | nil => exact nofun
  | cons b bs ih =>
    intro op hop
    rw [List.length_cons]
    rcases List.mem_cons.mp hop with rfl | hrest
    · exact ⟨Nat.le_refl a, Nat.lt_add_of_pos_right (Nat.succ_pos _)⟩
    · have := ih (a + 1) op hrest
      omega

theorem Within.append (h : Within lo hi ops) (h' : Within lo hi ops') :
    Within lo hi (ops ++ ops') := by
  intro op hop
  rcases List.mem_append.mp hop with hl | hr
  · exact h op hl
  · exact h' op hr

theorem Within.mono (h : Within lo hi ops) {lo' hi' : Nat} (hlo : lo' ≤ lo) (hhi : hi ≤ hi') :
    Within lo' hi' ops := by
  intro op hop
  have := h op hop
  omega

theorem Within.of_isPrefix (h : Within lo hi ops) (hp : ops' <+: ops) : Within lo hi ops' :=
  fun op hop => h op (hp.subset hop)

/-- A span that all operations avoid reads the same. -/
theorem Within.readBytes_run (h : Within lo hi ops) (havoid : a + n ≤ lo ∨ hi ≤ a) :
    readBytes (run f ops) a n = readBytes f a n := by
  refine readBytes_congr fun x hlo hhi => run_of_ne fun op hop => ?_
  have := h op hop
  omega

theorem run_eraseOps (hlo : a ≤ x) (hhi : x < a + n) : run f (eraseOps a n) x = 0xff := by
  induction n generalizing f a with
  | zero => omega
  | succ n ih =>
    rw [eraseOps, run_cons]
    by_cases hx : a = x
    · rw [run_of_ne fun op hop => ?_]
      · rw [← hx]
        exact update_self ..
      · have := within_eraseOps op hop
        omega
    · exact ih (by omega) (by omega)

theorem readBytes_programOps (herased : ∀ x, a ≤ x → x < a + bs.length → f x = 0xff) :
    readBytes (run f (programOps a bs)) a bs.length = bs := by
  induction bs generalizing f a with
  | nil => rfl
  | cons b bs ih =>
    rw [List.length_cons] at herased ⊢
    rw [programOps, run_cons, readBytes]
    have hhead : run (apply f (.program a b)) (programOps (a + 1) bs) a = b := by
      rw [run_of_ne fun op hop => ?_]
      · show update f a (f a &&& b) a = b
        rw [update_self, herased a (by omega) (by omega)]
        exact UInt8.neg_one_and
      · have := within_programOps (a + 1) bs op hop
        omega
    have htail := ih (f := apply f (.program a b)) (a := a + 1) fun x hlo hhi => by
      have hne : (ByteOp.program a b).addr ≠ x := show a ≠ x by omega
      rw [apply_of_ne hne]
      exact herased x (by omega) (by omega)
    rw [hhead, htail]

/-- **What is programmed after an erase reads back**, also when the erase went further. -/
theorem readBytes_program_erase (f : Flash) (a : Nat) (hlen : bs.length ≤ n) :
    readBytes (run f (eraseOps a n ++ programOps a bs)) a bs.length = bs := by
  rw [run_append]
  exact readBytes_programOps fun x hlo hhi => run_eraseOps hlo (by omega)

end NorFlash
