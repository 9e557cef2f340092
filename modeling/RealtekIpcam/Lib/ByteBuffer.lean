import Mathlib

/-!
# Byte buffers

A buffer that is filled at offsets, as one that a response is put together in.  Numbers lie in it
with the lowest byte first.  `Within lo hi` says that nothing is written but from `lo` up to `hi`;
such writes compose, and what lies elsewhere can be read as before.
-/

namespace ByteBuffer

/-- The bytes, by offset. -/
abbrev Buffer := Nat → UInt8

variable {buf buf' buf'' : Buffer} {a n lo hi lo' hi' : Nat} {bs : List UInt8}

/-- Bytes are written at an offset. -/
def put (a : Nat) (bs : List UInt8) (buf : Buffer) : Buffer := fun i =>
  if a ≤ i then bs.getD (i - a) (buf i) else buf i

/-- The `n` bytes at an offset. -/
def get (buf : Buffer) (a n : Nat) : List UInt8 := (List.range n).map fun i => buf (a + i)

/-- The lowest `n` bytes of a number. -/
def leBytes : Nat → Nat → List UInt8
  | 0, _ => []
  | n + 1, v => UInt8.ofNat v :: leBytes n (v / 256)

/-- The number with the given bytes. -/
def leValue : List UInt8 → Nat
  | [] => 0
  | b :: bs => b.toNat + 256 * leValue bs

/-- At most the bytes from `lo` up to `hi` are written. -/
def Within (lo hi : Nat) (buf buf' : Buffer) : Prop := ∀ i, i < lo ∨ hi ≤ i → buf' i = buf i

/-! ## Numbers -/

@[simp] theorem length_leBytes (n v : Nat) : (leBytes n v).length = n := by
  induction n generalizing v with
  | zero => rfl
  | succ n ih => rw [leBytes, List.length_cons, ih]

theorem leValue_leBytes (n v : Nat) : leValue (leBytes n v) = v % 256 ^ n := by
  induction n generalizing v with
  | zero => rw [leBytes, leValue, Nat.pow_zero, Nat.mod_one]
  | succ n ih =>
    have hpow : 256 ^ (n + 1) = 256 * 256 ^ n := Nat.pow_succ'
    rw [leBytes, leValue, ih, UInt8.toNat_ofNat', hpow, Nat.mod_mul]

/-! ## Writing -/

theorem put_within : Within a (a + bs.length) buf (put a bs buf) := by
  intro i hi
  unfold put
  split
  next h => exact List.getD_eq_default _ _ (by omega)
  next => rfl

theorem get_put : get (put a bs buf) a bs.length = bs := by
  refine List.ext_getElem (by simp [get]) fun i hi hi' => ?_
  simp [get, put, List.getElem?_eq_getElem hi']

theorem Within.refl : Within lo hi buf buf := fun _ _ => rfl

theorem Within.trans (h : Within lo hi buf buf') (h' : Within lo hi buf' buf'') :
    Within lo hi buf buf'' :=
  fun i hi => (h' i hi).trans (h i hi)

theorem Within.mono (h : Within lo hi buf buf') (hlo : lo' ≤ lo) (hhi : hi ≤ hi') :
    Within lo' hi' buf buf' :=
  fun i hi => h i (by omega)

theorem Within.get (h : Within lo hi buf buf') (hout : a + n ≤ lo ∨ hi ≤ a) :
    get buf' a n = get buf a n :=
  List.map_congr_left fun i hi => h (a + i) (by
    have := List.mem_range.mp hi
    omega)

end ByteBuffer
