import RealtekIpcam.Lib.Words

/-!
# Memory with 32-bit addresses

The memory of a small board is a function from 32-bit addresses to bytes, and address arithmetic
wraps.  `readBytes` is what a driver gets that is handed an address and a length, `copy` what
`memcpy` leaves behind, `word` a 32-bit load.

`Holds ram a bs` says that the bytes `bs` lie at `a`.  Its rules are that it splits along an append,
that a big-endian word in it is what a swapped load gives, and that a copy keeps it which covers
none of its bytes.

A range is an address and a length, and it may wrap too.  `Sep` says that two ranges have no byte in
common, and `SameOff` that two memories differ at most in a range; what is read from a range does
not change off it, `SameOff.readBytes`.
-/

namespace Ram

abbrev Memory := UInt32 → UInt8

variable {ram ram' : Memory} {a dst src : UInt32} {n m : Nat} {xs ys bs : List UInt8}

/-- The `n` bytes from `a` on. -/
def readBytes (ram : Memory) : UInt32 → Nat → List UInt8
  | _, 0 => []
  | a, n + 1 => ram a :: readBytes ram (a + 1) n

/-- A 32-bit load on a little-endian processor. -/
def word (ram : Memory) (a : UInt32) : UInt32 :=
  Words.le32 (ram a) (ram (a + 1)) (ram (a + 2)) (ram (a + 3))

/-- `memcpy`: the source is read before anything is written. -/
def copy (ram : Memory) (dst src : UInt32) (n : Nat) : Memory := fun x =>
  if (x - dst).toNat < n then ram (src + (x - dst)) else ram x

/-- The bytes `bs` lie at `a`. -/
def Holds (ram : Memory) (a : UInt32) (bs : List UInt8) : Prop := readBytes ram a bs.length = bs
  deriving Decidable

/-- Bytes stored at `a`. -/
def store (ram : Memory) (a : UInt32) (bs : List UInt8) : Memory := fun x =>
  if (x - a).toNat < bs.length then bs.getD (x - a).toNat 0 else ram x

/-- The ranges have no byte in common. -/
def Sep (a : UInt32) (n : Nat) (b : UInt32) (m : Nat) : Prop :=
  ∀ x, (x - a).toNat < n → ¬ (x - b).toNat < m

/-- The memories are the same off the range. -/
def SameOff (a : UInt32) (n : Nat) (ram ram' : Memory) : Prop :=
  ∀ x, ¬ (x - a).toNat < n → ram' x = ram x

/-- A memory with the bytes `bs` at `a`, and zeros elsewhere. -/
def ofBytes (a : UInt32) (bs : List UInt8) : Memory := fun x => bs.getD (x - a).toNat 0

/-! ## Reading -/

@[simp] theorem length_readBytes : (readBytes ram a n).length = n := by
  induction n generalizing a with
  | zero => rfl
  | succ n ih => rw [readBytes, List.length_cons, ih]

theorem add_ofNat_succ (a : UInt32) (i : Nat) :
    a + 1 + UInt32.ofNat i = a + UInt32.ofNat (i + 1) := by
  rw [UInt32.ofNat_add, UInt32.add_assoc, UInt32.add_comm 1]
  rfl

theorem readBytes_congr (h : ∀ i < n, ram (a + UInt32.ofNat i) = ram' (a + UInt32.ofNat i)) :
    readBytes ram a n = readBytes ram' a n := by
  induction n generalizing a with
  | zero => rfl
  | succ n ih =>
    have hhead := h 0 (Nat.succ_pos n)
    rw [show UInt32.ofNat 0 = 0 from rfl, UInt32.add_zero] at hhead
    rw [readBytes, readBytes, hhead, ih fun i hi => ?_]
    rw [add_ofNat_succ]
    exact h (i + 1) (Nat.succ_lt_succ hi)

theorem readBytes_add : readBytes ram a (n + m) =
    readBytes ram a n ++ readBytes ram (a + UInt32.ofNat n) m := by
  induction n generalizing a with
  | zero =>
    rw [Nat.zero_add, show UInt32.ofNat 0 = 0 from rfl, UInt32.add_zero]
    rfl
  | succ n ih => rw [Nat.add_right_comm, readBytes, ih, readBytes, add_ofNat_succ]; rfl

theorem getElem_readBytes {i : Nat} (hi : i < (readBytes ram a n).length) :
    (readBytes ram a n)[i] = ram (a + UInt32.ofNat i) := by
  induction n generalizing a i with
  | zero => exact absurd hi (Nat.not_lt_zero i)
  | succ n ih =>
    cases i with
    | zero =>
      rw [show UInt32.ofNat 0 = 0 from rfl, UInt32.add_zero]
      rfl
    | succ i =>
      rw [← add_ofNat_succ]
      exact ih (Nat.lt_of_succ_lt_succ hi)

theorem take_drop_readBytes {i : Nat} (hi : i ≤ m) :
    ((readBytes ram a m).drop i).take n = readBytes ram (a + UInt32.ofNat i) (min n (m - i)) := by
  have hsplit : m = i + (m - i) := by omega
  have hdrop : (readBytes ram a m).drop i = readBytes ram (a + UInt32.ofNat i) (m - i) := by
    rw [hsplit, readBytes_add, List.drop_left' length_readBytes, ← hsplit]
  have hpart : m - i = min n (m - i) + (m - i - min n (m - i)) := by omega
  rw [hdrop]
  by_cases hn : n ≤ m - i
  · rw [Nat.min_eq_left hn] at hpart ⊢
    rw [hpart, readBytes_add, List.take_left' length_readBytes]
  · rw [Nat.min_eq_right (by omega), List.take_of_length_le (by rw [length_readBytes]; omega)]

theorem readBytes_eq_iff : readBytes ram a n = readBytes ram' a n ↔
    ∀ i < n, ram (a + UInt32.ofNat i) = ram' (a + UInt32.ofNat i) := by
  refine ⟨fun h i hi => ?_, readBytes_congr⟩
  have hi₁ : i < (readBytes ram a n).length := by
    rw [length_readBytes]
    exact hi
  have hi₂ : i < (readBytes ram' a n).length := by
    rw [length_readBytes]
    exact hi
  rw [← getElem_readBytes hi₁, ← getElem_readBytes hi₂]
  simp only [h]

/-! ## What lies where -/

/-- A memory holds the bytes it was made from. -/
theorem holds_ofBytes (a : UInt32) (hlen : bs.length ≤ 2 ^ 32) : Holds (ofBytes a bs) a bs := by
  refine List.ext_getElem length_readBytes fun i hi hi' => ?_
  have hoffset : (a + UInt32.ofNat i - a).toNat = i := by
    rw [UInt32.toNat_sub, UInt32.toNat_add, UInt32.toNat_ofNat']
    have ha := a.toNat_lt
    omega
  rw [getElem_readBytes]
  show bs.getD (a + UInt32.ofNat i - a).toNat 0 = bs[i]
  rw [hoffset]
  rw [List.getD_eq_getElem?_getD, List.getElem?_eq_getElem hi']
  rfl

theorem holds_readBytes : Holds ram a (readBytes ram' dst n) ↔
    readBytes ram a n = readBytes ram' dst n := by
  unfold Holds
  rw [length_readBytes]

theorem holds_append : Holds ram a (xs ++ ys) ↔
    Holds ram a xs ∧ Holds ram (a + UInt32.ofNat xs.length) ys := by
  unfold Holds
  rw [List.length_append, readBytes_add]
  constructor
  · intro h
    exact List.append_inj h length_readBytes
  · rintro ⟨hx, hy⟩
    rw [hx, hy]

/-- A big-endian word in memory, read and swapped. -/
theorem Holds.htonl_word {w : UInt32} (h : Holds ram a (Words.beBytes w)) :
    Words.htonl (word ram a) = w := by
  have hbytes : [ram a, ram (a + 1), ram (a + 1 + 1), ram (a + 1 + 1 + 1)] =
      [UInt8.ofNat (w.toNat / 2 ^ 24), UInt8.ofNat (w.toNat / 2 ^ 16),
        UInt8.ofNat (w.toNat / 2 ^ 8), UInt8.ofNat w.toNat] := h
  rw [UInt32.add_assoc a 1 1, UInt32.add_assoc a (1 + 1) 1] at hbytes
  injection hbytes with h₀ hbytes
  injection hbytes with h₁ hbytes
  injection hbytes with h₂ hbytes
  injection hbytes with h₃ _
  have h₂ : ram (a + 2) = UInt8.ofNat (w.toNat / 2 ^ 8) := h₂
  have h₃ : ram (a + 3) = UInt8.ofNat w.toNat := h₃
  unfold word
  rw [h₀, h₁, h₂, h₃, Words.htonl_le32, Words.le32_bytes]

/-- A copy keeps what it covers no byte of. -/
theorem Holds.copy (h : Holds ram a bs)
    (hclear : ∀ i < bs.length, n ≤ (a + UInt32.ofNat i - dst).toNat) :
    Holds (copy ram dst src n) a bs := by
  unfold Holds
  rw [readBytes_congr fun i hi => ?_]
  · exact h
  · exact if_neg (Nat.not_lt.mpr (hclear i hi))

/-! ## Ranges -/

variable {b c : UInt32} {k : Nat} {ram'' : Memory}

theorem Sep.symm (h : Sep a n b m) : Sep b m a n := fun x hb ha => h x ha hb

theorem sep_zero_left (a : UInt32) (b : UInt32) (m : Nat) : Sep a 0 b m :=
  fun _ h => absurd h (Nat.not_lt_zero _)

theorem sep_zero_right (a : UInt32) (n : Nat) (b : UInt32) : Sep a n b 0 :=
  fun _ _ h => Nat.not_lt_zero _ h

/-- Parts of separate ranges are separate. -/
theorem Sep.mono (h : Sep a n b m) {n' m' : Nat} (hn : n' ≤ n) (hm : m' ≤ m) : Sep a n' b m' :=
  fun x ha hb => h x (Nat.lt_of_lt_of_le ha hn) (Nat.lt_of_lt_of_le hb hm)

/-- Each of two separate ranges ends before the other begins, going round. -/
theorem sep_iff (hn : n ≤ 2 ^ 32) (hm : m ≤ 2 ^ 32) : Sep a n b m ↔
    n = 0 ∨ m = 0 ∨ (n ≤ (b - a).toNat ∧ m ≤ (a - b).toNat) := by
  have ha := a.toNat_lt
  have hb := b.toNat_lt
  constructor
  · intro h
    have hatb := h b
    have hata := h a
    rw [UInt32.sub_self] at hatb hata
    have hzero : (0 : UInt32).toNat = 0 := rfl
    omega
  · intro h x hx hx'
    have hlt := x.toNat_lt
    rw [UInt32.toNat_sub] at h hx hx'
    rw [UInt32.toNat_sub] at h
    omega

instance (a b n m : UInt32) : Decidable (Sep a n.toNat b m.toNat) :=
  decidable_of_iff _ (sep_iff n.toNat_lt.le m.toNat_lt.le).symm

theorem toNat_add_ofNat_sub {i : Nat} (hi : i < 2 ^ 32) : (a + UInt32.ofNat i - a).toNat = i := by
  rw [UInt32.toNat_sub, UInt32.toNat_add, UInt32.toNat_ofNat']
  have ha := a.toNat_lt
  omega

theorem SameOff.refl (a : UInt32) (n : Nat) (ram : Memory) : SameOff a n ram ram := fun _ _ => rfl

theorem SameOff.trans (h : SameOff a n ram ram') (h' : SameOff a n ram' ram'') :
    SameOff a n ram ram'' := fun x hx => (h' x hx).trans (h x hx)

/-- What is read from a range does not change off it. -/
theorem SameOff.readBytes (h : SameOff a n ram ram') (hsep : Sep a n b m) (hm : m ≤ 2 ^ 32) :
    readBytes ram' b m = readBytes ram b m := by
  refine readBytes_congr fun i hi => h _ fun hin => hsep _ hin ?_
  rw [toNat_add_ofNat_sub (by omega)]
  exact hi

/-- Bytes that lie in a separate range stay. -/
theorem Holds.sameOff (h : Holds ram a bs) (hoff : SameOff b m ram ram')
    (hsep : Sep b m a bs.length) (hlen : bs.length ≤ 2 ^ 32) : Holds ram' a bs :=
  (hoff.readBytes hsep hlen).trans h

theorem sameOff_copy (ram : Memory) (dst src : UInt32) (n : Nat) :
    SameOff dst n ram (copy ram dst src n) := fun _ hx => if_neg hx

/-- What is copied arrives: any part of it, from the offset `k` on. -/
theorem readBytes_copy_add (ram : Memory) (dst src : UInt32) (hm : k + m ≤ n)
    (hm' : k + m ≤ 2 ^ 32) : readBytes (copy ram dst src n) (dst + UInt32.ofNat k) m =
      readBytes ram (src + UInt32.ofNat k) m := by
  refine List.ext_getElem (length_readBytes.trans length_readBytes.symm) fun i hi hi' => ?_
  rw [length_readBytes] at hi
  have hoff : dst + UInt32.ofNat (k + i) - dst = UInt32.ofNat (k + i) := by
    rw [UInt32.add_comm, UInt32.add_sub_cancel]
  rw [getElem_readBytes, getElem_readBytes, UInt32.add_assoc, UInt32.add_assoc, ← UInt32.ofNat_add]
  unfold copy
  rw [hoff, if_pos]
  rw [UInt32.toNat_ofNat']
  omega

theorem readBytes_copy (ram : Memory) (dst src : UInt32) (hm : m ≤ n) (hm' : m ≤ 2 ^ 32) :
    readBytes (copy ram dst src n) dst m = readBytes ram src m := by
  have h := readBytes_copy_add ram dst src (k := 0) (by omega : 0 + m ≤ n) (by omega)
  rwa [show UInt32.ofNat 0 = 0 from rfl, UInt32.add_zero, UInt32.add_zero] at h

theorem SameOff.mono (h : SameOff a n ram ram')
    (hle : ∀ x, (x - a).toNat < n → (x - b).toNat < m) : SameOff b m ram ram' :=
  fun x hx => h x fun hin => hx (hle x hin)

/-- The same bytes stored over what reads the same. -/
theorem readBytes_store_congr (h : readBytes ram a n = readBytes ram' a n) (b : UInt32)
    (bs : List UInt8) : readBytes (store ram b bs) a n = readBytes (store ram' b bs) a n := by
  rw [readBytes_eq_iff] at h ⊢
  intro i hi
  unfold store
  rw [h i hi]

theorem sameOff_store (ram : Memory) (a : UInt32) (bs : List UInt8) :
    SameOff a bs.length ram (store ram a bs) := fun _ hx => if_neg hx

theorem holds_store (ram : Memory) (a : UInt32) (hlen : bs.length ≤ 2 ^ 32) :
    Holds (store ram a bs) a bs := by
  refine List.ext_getElem length_readBytes fun i hi hi' => ?_
  have hoff := toNat_add_ofNat_sub (a := a) (i := i) (by omega)
  rw [getElem_readBytes]
  unfold store
  rw [hoff, if_pos hi', List.getD_eq_getElem?_getD, List.getElem?_eq_getElem hi']
  rfl

/-! ## A copy in parts -/

/-- Every address is an offset from any other. -/
theorem exists_offset (dst x : UInt32) : ∃ d, d < 2 ^ 32 ∧ x = dst + UInt32.ofNat d := by
  refine ⟨(x - dst).toNat, UInt32.toNat_lt _, ?_⟩
  rw [UInt32.ofNat_toNat, UInt32.add_comm, UInt32.sub_add_cancel]

/-- A copy, by the offset from its start. -/
theorem copy_add (ram : Memory) (dst src : UInt32) (n : Nat) {d : Nat} (hd : d < 2 ^ 32) :
    copy ram dst src n (dst + UInt32.ofNat d) =
      if d < n then ram (src + UInt32.ofNat d) else ram (dst + UInt32.ofNat d) := by
  have hoff : dst + UInt32.ofNat d - dst = UInt32.ofNat d := by
    rw [UInt32.add_comm, UInt32.add_sub_cancel]
  unfold copy
  rw [toNat_add_ofNat_sub hd, hoff]

theorem add_ofNat_sub_cancel (a : UInt32) {d : Nat} (h : n ≤ d) :
    a + UInt32.ofNat d = a + UInt32.ofNat n + UInt32.ofNat (d - n) := by
  rw [UInt32.add_assoc, ← UInt32.ofNat_add, Nat.add_sub_cancel' h]

/-- A copy in two parts, the front first, if the front covers nothing that the back is read
from. -/
theorem copy_copy_front (ram : Memory) (hlen : n + m ≤ 2 ^ 32)
    (hclear : ∀ i < m, n ≤ (src + UInt32.ofNat (n + i) - dst).toNat) :
    copy (copy ram dst src n) (dst + UInt32.ofNat n) (src + UInt32.ofNat n) m =
      copy ram dst src (n + m) := by
  funext x
  obtain ⟨d, hd, rfl⟩ := exists_offset dst x
  rw [copy_add ram dst src (n + m) hd]
  by_cases hn : n ≤ d
  · rw [add_ofNat_sub_cancel dst hn, copy_add _ _ _ _ (by omega), ← add_ofNat_sub_cancel src hn,
      ← add_ofNat_sub_cancel dst hn, copy_add ram dst src n hd, if_neg (Nat.not_lt.mpr hn)]
    by_cases hm : d - n < m
    · have h := hclear (d - n) hm
      rw [Nat.add_sub_cancel' hn] at h
      rw [if_pos hm, if_pos (by omega)]
      exact if_neg (Nat.not_lt.mpr h)
    · rw [if_neg hm, if_neg (by omega)]
  · have hbehind : ¬ (dst + UInt32.ofNat d - (dst + UInt32.ofNat n)).toNat < m := by
      rw [UInt32.toNat_sub, UInt32.toNat_add, UInt32.toNat_add, UInt32.toNat_ofNat',
        UInt32.toNat_ofNat']
      have := dst.toNat_lt
      omega
    rw [show copy _ (dst + UInt32.ofNat n) _ m (dst + UInt32.ofNat d) =
      copy ram dst src n (dst + UInt32.ofNat d) from if_neg hbehind, copy_add ram dst src n hd,
      if_pos (by omega), if_pos (by omega)]

/-- A copy in two parts, the back first, if the back covers nothing that the front is read
from. -/
theorem copy_copy_back (ram : Memory) (hlen : n + m ≤ 2 ^ 32)
    (hclear : ∀ i < n, m ≤ (src + UInt32.ofNat i - (dst + UInt32.ofNat n)).toNat) :
    copy (copy ram (dst + UInt32.ofNat n) (src + UInt32.ofNat n) m) dst src n =
      copy ram dst src (n + m) := by
  funext x
  obtain ⟨d, hd, rfl⟩ := exists_offset dst x
  rw [copy_add _ dst src n hd, copy_add ram dst src (n + m) hd]
  by_cases hn : n ≤ d
  · rw [if_neg (Nat.not_lt.mpr hn), add_ofNat_sub_cancel dst hn, copy_add _ _ _ _ (by omega),
      ← add_ofNat_sub_cancel src hn, ← add_ofNat_sub_cancel dst hn]
    exact if_congr (by omega) rfl rfl
  · rw [if_pos (by omega), if_pos (by omega)]
    exact if_neg (Nat.not_lt.mpr (hclear d (by omega)))
end Ram
