import RealtekIpcam.Lib.Ram

/-!
# Packet buffers of words

A controller with a packet buffer that is written and read a word at a time: register `i` of the
buffer holds its bytes `4 i` to `4 i + 3`, lowest first.  A driver moves a packet with a loop of
32-bit loads or stores over a byte address, so it moves whole words, and the last one may reach past
the end of the packet.

`loadWords` is the loop towards the buffer and `storeWords` the loop away from it.  Each has one
rule that says what every byte is afterwards, `byteAt_loadWords` and `storeWords_apply`.
-/

namespace PacketBuffer

open Ram

variable {ram : Memory} {a x : UInt32} {w : Nat → UInt32} {n i : Nat}

/-- Byte `i` of a packet buffer. -/
def byteAt (w : Nat → UInt32) (i : Nat) : UInt8 := (Words.leBytes (w (i / 4))).getD (i % 4) 0

/-- The first `n` bytes of a packet buffer. -/
def bytes (w : Nat → UInt32) (n : Nat) : List UInt8 := (List.range n).map (byteAt w)

/-- The words `0 .. n - 1` of the buffer are loaded from memory, one after the other. -/
def loadWords (ram : Memory) (a : UInt32) (w : Nat → UInt32) : Nat → (Nat → UInt32)
  | 0 => w
  | n + 1 => fun i =>
    if i = n then word ram (a + UInt32.ofNat (4 * n)) else loadWords ram a w n i

/-- The words `0 .. n - 1` of the buffer are stored to memory, one after the other. -/
def storeWords (w : Nat → UInt32) (a : UInt32) (ram : Memory) : Nat → Memory
  | 0 => ram
  | n + 1 => store (storeWords w a ram n) (a + UInt32.ofNat (4 * n)) (Words.leBytes (w n))

/-! ## Bytes -/

@[simp] theorem length_bytes : (bytes w n).length = n := by
  rw [bytes, List.length_map, List.length_range]

theorem getElem_bytes (hi : i < (bytes w n).length) : (bytes w n)[i] = byteAt w i := by
  simp [bytes]

theorem getD_leBytes_word (ram : Memory) (a : UInt32) (hi : i < 4) :
    (Words.leBytes (word ram a)).getD i 0 = ram (a + UInt32.ofNat i) := by
  rw [word, Words.leBytes_le32]
  match i, hi with
  | 0, _ =>
    rw [show UInt32.ofNat 0 = 0 from rfl, UInt32.add_zero]
    rfl
  | 1, _ => rfl
  | 2, _ => rfl
  | 3, _ => rfl

theorem loadWords_apply (i : Nat) : loadWords ram a w n i =
    if i < n then word ram (a + UInt32.ofNat (4 * i)) else w i := by
  induction n with
  | zero => rfl
  | succ n ih =>
    show (if i = n then _ else loadWords ram a w n i) = _
    by_cases hi : i = n
    · rw [if_pos hi, if_pos (by omega), hi]
    · rw [if_neg hi, ih]
      by_cases hlt : i < n
      · rw [if_pos hlt, if_pos (by omega)]
      · rw [if_neg hlt, if_neg (by omega)]

/-- What is loaded are the bytes of memory, up to a whole word. -/
theorem byteAt_loadWords (hi : i < 4 * n) :
    byteAt (loadWords ram a w n) i = ram (a + UInt32.ofNat i) := by
  have hsplit : 4 * (i / 4) + i % 4 = i := Nat.div_add_mod i 4
  rw [byteAt, loadWords_apply, if_pos (by omega), getD_leBytes_word _ _ (Nat.mod_lt _ (by decide)),
    UInt32.add_assoc, ← UInt32.ofNat_add, hsplit]

/-- A packet that is loaded is what lies in memory. -/
theorem bytes_loadWords {m : Nat} (hm : m ≤ 4 * n) :
    bytes (loadWords ram a w n) m = readBytes ram a m := by
  refine List.ext_getElem (length_bytes.trans length_readBytes.symm) fun i hi hi' => ?_
  rw [length_bytes] at hi
  rw [getElem_bytes, getElem_readBytes, byteAt_loadWords (by omega)]

/-! ## Storing -/

/-- Offsets from two bases that are `k` apart. -/
theorem toNat_sub_add {k : Nat} (hk : k ≤ (x - a).toNat) :
    (x - (a + UInt32.ofNat k)).toNat = (x - a).toNat - k := by
  have ha := a.toNat_lt
  have hx := x.toNat_lt
  have hlt := (x - a).toNat_lt
  rw [UInt32.toNat_sub] at hk hlt ⊢
  rw [UInt32.toNat_sub, UInt32.toNat_add, UInt32.toNat_ofNat']
  omega

/-- An address before the second of two bases is far from it. -/
theorem le_toNat_sub_add {k m : Nat} (hk : (x - a).toNat < k) (hkm : k + m ≤ 2 ^ 32) :
    m ≤ (x - (a + UInt32.ofNat k)).toNat := by
  have ha := a.toNat_lt
  have hx := x.toNat_lt
  rw [UInt32.toNat_sub] at hk ⊢
  rw [UInt32.toNat_add, UInt32.toNat_ofNat']
  omega

/-- What is stored are the bytes of the buffer, up to a whole word, and nothing else. -/
theorem storeWords_apply (hn : 4 * n ≤ 2 ^ 32) (x : UInt32) : storeWords w a ram n x =
    if (x - a).toNat < 4 * n then byteAt w (x - a).toNat else ram x := by
  induction n with
  | zero => rfl
  | succ n ih =>
    show (if (x - (a + UInt32.ofNat (4 * n))).toNat < 4 then
      (Words.leBytes (w n)).getD (x - (a + UInt32.ofNat (4 * n))).toNat 0
      else storeWords w a ram n x) = _
    by_cases hlow : (x - a).toNat < 4 * n
    · have hfar := le_toNat_sub_add (m := 4) hlow (by omega)
      rw [if_neg (Nat.not_lt.mpr hfar), ih (by omega), if_pos hlow, if_pos (by omega)]
    · rw [toNat_sub_add (Nat.le_of_not_lt hlow)]
      by_cases hin : (x - a).toNat < 4 * (n + 1)
      · rw [if_pos hin, if_pos (by omega)]
        have hdiv : (x - a).toNat / 4 = n := by omega
        have hmod : (x - a).toNat % 4 = (x - a).toNat - 4 * n := by omega
        rw [byteAt, hdiv, hmod]
      · rw [if_neg hin, if_neg (by omega), ih (by omega), if_neg hlow]

theorem readBytes_storeWords {m : Nat} (hm : m ≤ 4 * n) (hn : 4 * n ≤ 2 ^ 32) :
    readBytes (storeWords w a ram n) a m = bytes w m := by
  refine List.ext_getElem (length_readBytes.trans length_bytes.symm) fun i hi hi' => ?_
  rw [length_bytes] at hi'
  rw [getElem_bytes, getElem_readBytes, storeWords_apply hn,
    toNat_add_ofNat_sub (by omega), if_pos (by omega)]

/-- The same, for words that are stored `k` bytes into a buffer. -/
theorem storeWords_add_apply {k : Nat} (hn : k + 4 * n ≤ 2 ^ 32) (x : UInt32) :
    storeWords w (a + UInt32.ofNat k) ram n x =
      if k ≤ (x - a).toNat ∧ (x - a).toNat < k + 4 * n then byteAt w ((x - a).toNat - k)
      else ram x := by
  rw [storeWords_apply (by omega)]
  by_cases hk : k ≤ (x - a).toNat
  · rw [toNat_sub_add hk]
    by_cases hin : (x - a).toNat < k + 4 * n
    · rw [if_pos (by omega), if_pos ⟨hk, hin⟩]
    · rw [if_neg (by omega), if_neg fun h => hin h.2]
  · have hfar := le_toNat_sub_add (m := 4 * n) (Nat.lt_of_not_le hk) hn
    rw [if_neg (Nat.not_lt.mpr hfar), if_neg fun h => hk h.1]

/-- What is stored behind bytes that lie there already follows them. -/
theorem readBytes_storeWords_add {k m : Nat} (hm : m ≤ 4 * n) (hn : k + 4 * n ≤ 2 ^ 32) :
    readBytes (storeWords w (a + UInt32.ofNat k) ram n) a (k + m) =
      readBytes ram a k ++ bytes w m := by
  rw [readBytes_add, readBytes_storeWords hm (by omega)]
  congr 1
  refine readBytes_congr fun i hi => ?_
  rw [storeWords_add_apply hn, toNat_add_ofNat_sub (by omega), if_neg (by omega)]

theorem sameOff_storeWords_add {k : Nat} (hn : k + 4 * n ≤ 2 ^ 32) :
    SameOff a (k + 4 * n) ram (storeWords w (a + UInt32.ofNat k) ram n) := by
  intro x hx
  rw [storeWords_add_apply hn, if_neg fun h => hx h.2]

end PacketBuffer
