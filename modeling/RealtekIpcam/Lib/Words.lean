import Mathlib.Algebra.Order.Ring.Nat

/-!
# Words of four bytes

A 32-bit word as a little-endian processor lays it out in memory, and the byte swap that a
reader of big-endian data applies to it.  The rules are the two round trips.  Arithmetic on
such words is that of the integers as long as the result fits, and so it is on words of 64 bits,
signed and unsigned.
-/

namespace Words

/-- The word with the given bytes, lowest address first, on a little-endian processor. -/
def le32 (b₀ b₁ b₂ b₃ : UInt8) : UInt32 :=
  UInt32.ofNat (b₀.toNat + 2 ^ 8 * b₁.toNat + 2 ^ 16 * b₂.toNat + 2 ^ 24 * b₃.toNat)

/-- The bytes of a word in little-endian order. -/
def leBytes (w : UInt32) : List UInt8 :=
  [UInt8.ofNat w.toNat, UInt8.ofNat (w.toNat / 2 ^ 8), UInt8.ofNat (w.toNat / 2 ^ 16),
    UInt8.ofNat (w.toNat / 2 ^ 24)]

/-- The bytes of a word in big-endian order. -/
def beBytes (w : UInt32) : List UInt8 := (leBytes w).reverse

/-- `htonl` on a little-endian processor: the bytes in the opposite order. -/
def htonl (w : UInt32) : UInt32 :=
  le32 (UInt8.ofNat (w.toNat / 2 ^ 24)) (UInt8.ofNat (w.toNat / 2 ^ 16))
    (UInt8.ofNat (w.toNat / 2 ^ 8)) (UInt8.ofNat w.toNat)

variable (b₀ b₁ b₂ b₃ : UInt8) (w : UInt32)

theorem toNat_le32 : (le32 b₀ b₁ b₂ b₃).toNat =
    b₀.toNat + 2 ^ 8 * b₁.toNat + 2 ^ 16 * b₂.toNat + 2 ^ 24 * b₃.toNat := by
  have h₀ := b₀.toNat_lt
  have h₁ := b₁.toNat_lt
  have h₂ := b₂.toNat_lt
  have h₃ := b₃.toNat_lt
  unfold le32
  rw [UInt32.toNat_ofNat']
  omega

theorem le32_bytes : le32 (UInt8.ofNat w.toNat) (UInt8.ofNat (w.toNat / 2 ^ 8))
    (UInt8.ofNat (w.toNat / 2 ^ 16)) (UInt8.ofNat (w.toNat / 2 ^ 24)) = w := by
  have hw := w.toNat_lt
  refine UInt32.toNat_inj.mp ?_
  rw [toNat_le32]
  simp only [UInt8.toNat_ofNat']
  omega

/-- The bytes of a word that was put together from them. -/
theorem leBytes_le32 : leBytes (le32 b₀ b₁ b₂ b₃) = [b₀, b₁, b₂, b₃] := by
  have h₀ := b₀.toNat_lt
  have h₁ := b₁.toNat_lt
  have h₂ := b₂.toNat_lt
  have h₃ := b₃.toNat_lt
  have hbyte {b : UInt8} {n : Nat} (h : n % 2 ^ 8 = b.toNat) : UInt8.ofNat n = b :=
    UInt8.toNat_inj.mp ((UInt8.toNat_ofNat' ..).trans h)
  unfold leBytes
  rw [toNat_le32, hbyte (b := b₀) (by omega), hbyte (b := b₁) (by omega),
    hbyte (b := b₂) (by omega), hbyte (b := b₃) (by omega)]

/-- A big-endian word, read as the processor does and swapped. -/
theorem htonl_le32 : htonl (le32 b₀ b₁ b₂ b₃) = le32 b₃ b₂ b₁ b₀ := by
  have h₀ := b₀.toNat_lt
  have h₁ := b₁.toNat_lt
  have h₂ := b₂.toNat_lt
  have h₃ := b₃.toNat_lt
  refine UInt32.toNat_inj.mp ?_
  unfold htonl
  simp only [toNat_le32, UInt8.toNat_ofNat']
  omega

@[simp] theorem length_beBytes : (beBytes w).length = 4 := rfl

/-! ## Unsigned arithmetic -/

/-- A number as an unsigned 32-bit word holds it. -/
def u32 (x : Int) : Nat := (x % 4294967296).toNat

/-- A number that fits is held as it is. -/
theorem u32_eq {x : Int} (hx : 0 ≤ x) (hlt : x < 4294967296) : u32 x = x.toNat := by
  rw [u32, Int.emod_eq_of_lt hx hlt]

/-- A number that fits in 64 signed bits is held as it is. -/
theorem bmod_of_fits {x : Int} (hlo : -2 ^ 63 ≤ x) (hhi : x < 2 ^ 63) : x.bmod (2 ^ 64) = x :=
  Int.bmod_eq_of_le_mul_two (by omega) (by omega)

/-- A signed word taken for an unsigned one. -/
theorem toNat_unsigned (x : Int64) : (x.toUInt64.toNat : Int) = x.toInt % 2 ^ 64 := by
  have hlt := x.toUInt64.toNat_lt
  have hmod := Int.bmod_emod (x := x.toUInt64.toNat) (m := 2 ^ 64)
  rw [← Int64.toInt_toBitVec, BitVec.toInt_eq_toNat_bmod, Int64.toNat_toBitVec]
  omega

/-- An unsigned word taken for a signed one. -/
theorem toInt_signed (x : UInt64) : x.toInt64.toInt = (x.toNat : Int).bmod (2 ^ 64) := by
  rw [← Int64.toInt_toBitVec, BitVec.toInt_eq_toNat_bmod]
  rfl

end Words
