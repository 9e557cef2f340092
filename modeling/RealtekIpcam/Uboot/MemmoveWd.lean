import RealtekIpcam.Lib.Ram

/-!
# Moving an image past the watchdog

With a watchdog configured, `memmove_wd` moves an image in chunks and resets the watchdog before
each.  Source and destination may overlap, so it moves the chunks from the end backwards when the
destination lies higher, and from the start forwards when it lies lower.

A chunk is written over bytes that were read already, and not over bytes that are still to be read:
`memmoveWd_eq` is that the chunks together are one copy.  The pointers one past the end of the two
ranges are compared too, so the ranges must end below the top of the address space, as objects do.
-/

namespace RealtekIpcam.Uboot.MemmoveWd

open Ram (Memory copy readBytes SameOff)

/-! ## The function -/

/-- The memory, and the variables of the loop. -/
structure State where
  ram : Memory
  to_ : UInt32
  from_ : UInt32
  len : UInt32

/-- The body of the loop; `memmove` reads a chunk before it writes it. -/
def body (chunksz : UInt32) (s : State) : State :=
  let tail := if chunksz < s.len then chunksz else s.len
  let to_ := if s.from_ < s.to_ then s.to_ - tail else s.to_
  let from_ := if s.from_ < s.to_ then s.from_ - tail else s.from_
  { ram := copy s.ram to_ from_ tail.toNat
    to_ := if to_ < from_ then to_ + tail else to_
    from_ := if to_ < from_ then from_ + tail else from_
    len := s.len - tail }

/-- The loop, for at most so many rounds. -/
def loop (chunksz : UInt32) : Nat → State → Option Memory
  | 0, _ => none
  | fuel + 1, s => if s.len = 0 then some s.ram else loop chunksz fuel (body chunksz s)

/-- `memmove_wd` with a watchdog. -/
def memmoveWd (ram : Memory) (to_ from_ len chunksz : UInt32) (fuel : Nat) : Option Memory :=
  if to_ = from_ then some ram
  else if from_ < to_ then
    loop chunksz fuel { ram := ram, to_ := to_ + len, from_ := from_ + len, len := len }
  else loop chunksz fuel { ram := ram, to_ := to_, from_ := from_, len := len }

/-- The length of the next chunk, with `n` bytes left. -/
def next (chunksz : UInt32) (n : Nat) : Nat := min chunksz.toNat n

theorem tail_eq {chunksz : UInt32} {n : Nat} (hn : n < 2 ^ 32) :
    (if chunksz < UInt32.ofNat n then chunksz else UInt32.ofNat n) =
      UInt32.ofNat (next chunksz n) := by
  have hlt : chunksz < UInt32.ofNat n ↔ chunksz.toNat < n := by
    rw [UInt32.lt_iff_toNat_lt, UInt32.toNat_ofNat', Nat.mod_eq_of_lt hn]
  rw [next]
  split
  · rename_i h
    rw [Nat.min_eq_left (hlt.mp h).le, UInt32.ofNat_toNat]
  · rename_i h
    rw [Nat.min_eq_right (Nat.not_lt.mp fun hc => h (hlt.mpr hc))]

/-- **The loop** moves `len` bytes through the states `at_ m`, with `m` bytes moved. -/
theorem loop_eq {chunksz : UInt32} (hchunksz : 0 < chunksz) {len : Nat} (hlen : len < 2 ^ 32)
    (at_ : Nat → State) (hat : ∀ m ≤ len, (at_ m).len = UInt32.ofNat (len - m))
    (hbody : ∀ m < len, body chunksz (at_ m) = at_ (m + next chunksz (len - m)))
    {m fuel : Nat} (hm : m ≤ len) (hfuel : len - m < fuel) :
    loop chunksz fuel (at_ m) = some (at_ len).ram := by
  induction fuel generalizing m with
  | zero => exact absurd hfuel (Nat.not_lt_zero _)
  | succ fuel ih =>
    have hpos : 0 < chunksz.toNat := UInt32.lt_iff_toNat_lt.mp hchunksz
    have hzero : UInt32.ofNat (len - m) = 0 ↔ len - m = 0 := by
      rw [← UInt32.toNat_inj, UInt32.toNat_ofNat', Nat.mod_eq_of_lt (by omega)]
      rfl
    rw [loop, hat m hm]
    by_cases hend : len - m = 0
    · obtain rfl : m = len := by omega
      rw [if_pos (hzero.mpr hend)]
    · have hnext : 0 < next chunksz (len - m) ∧ next chunksz (len - m) ≤ len - m := by
        unfold next
        omega
      rw [if_neg fun hc => hend (hzero.mp hc), hbody m (by omega)]
      exact ih (by omega) (by omega)

/-! ## The two directions -/

section

variable {ram : Memory} {to_ from_ chunksz : UInt32} {len : Nat}

/-- After `m` bytes forwards. -/
def forward (ram : Memory) (to_ from_ : UInt32) (len m : Nat) : State where
  ram := copy ram to_ from_ m
  to_ := to_ + UInt32.ofNat m
  from_ := from_ + UInt32.ofNat m
  len := UInt32.ofNat (len - m)

/-- After `m` bytes backwards. -/
def backward (ram : Memory) (to_ from_ : UInt32) (len m : Nat) : State where
  ram := copy ram (to_ + UInt32.ofNat (len - m)) (from_ + UInt32.ofNat (len - m)) m
  to_ := to_ + UInt32.ofNat (len - m)
  from_ := from_ + UInt32.ofNat (len - m)
  len := UInt32.ofNat (len - m)

theorem add_lt_add_iff {a b : UInt32} {k : Nat} (ha : a.toNat + len < 2 ^ 32)
    (hb : b.toNat + len < 2 ^ 32) (hk : k ≤ len) :
    a + UInt32.ofNat k < b + UInt32.ofNat k ↔ a < b := by
  rw [UInt32.lt_iff_toNat_lt, UInt32.lt_iff_toNat_lt, UInt32.toNat_add, UInt32.toNat_add,
    UInt32.toNat_ofNat']
  omega

theorem next_le (chunksz : UInt32) (n : Nat) : next chunksz n ≤ n := Nat.min_le_right _ _

theorem body_of_lt {s : State} {t : UInt32} (ht : (if chunksz < s.len then chunksz else s.len) = t)
    (hlt : s.to_ < s.from_) : body chunksz s =
      { ram := copy s.ram s.to_ s.from_ t.toNat
        to_ := s.to_ + t
        from_ := s.from_ + t
        len := s.len - t } := by
  subst ht
  simp only [body, if_neg (UInt32.lt_asymm hlt), if_pos hlt]

theorem body_of_gt {s : State} {t : UInt32} (ht : (if chunksz < s.len then chunksz else s.len) = t)
    (hgt : s.from_ < s.to_) (hgt' : s.from_ - t < s.to_ - t) : body chunksz s =
      { ram := copy s.ram (s.to_ - t) (s.from_ - t) t.toNat
        to_ := s.to_ - t
        from_ := s.from_ - t
        len := s.len - t } := by
  subst ht
  simp only [body, if_pos hgt, if_neg (UInt32.lt_asymm hgt')]

theorem body_forward (hto : to_.toNat + len < 2 ^ 32) (hfrom : from_.toNat + len < 2 ^ 32)
    (hlt : to_ < from_) {m : Nat} (hm : m < len) :
    body chunksz (forward ram to_ from_ len m) =
      forward ram to_ from_ len (m + next chunksz (len - m)) := by
  rw [body_of_lt (s := forward ram to_ from_ len m) (tail_eq (by omega))
    ((add_lt_add_iff hto hfrom hm.le).mpr hlt)]
  have hnext := next_le chunksz (len - m)
  generalize next chunksz (len - m) = t at hnext
  have hram : copy (copy ram to_ from_ m) (to_ + UInt32.ofNat m) (from_ + UInt32.ofNat m) t =
      copy ram to_ from_ (m + t) := by
    refine Ram.copy_copy_front ram (by omega) fun i hi => ?_
    have hlt := UInt32.lt_iff_toNat_lt.mp hlt
    rw [UInt32.toNat_sub, UInt32.toNat_add, UInt32.toNat_ofNat']
    omega
  simp only [forward, UInt32.toNat_ofNat', Nat.mod_eq_of_lt (show t < 2 ^ 32 by omega), hram,
    UInt32.add_assoc, ← UInt32.ofNat_add, ← UInt32.ofNat_sub hnext, Nat.sub_sub]

theorem add_ofNat_sub_ofNat (a : UInt32) {n t : Nat} (h : t ≤ n) :
    a + UInt32.ofNat n - UInt32.ofNat t = a + UInt32.ofNat (n - t) := by
  rw [← Nat.sub_add_cancel h, UInt32.ofNat_add, ← UInt32.add_assoc, UInt32.add_sub_cancel,
    Nat.add_sub_cancel]

theorem toNat_add_ofNat_add {a : UInt32} {r t : Nat} (ha : a.toNat + len < 2 ^ 32)
    (h : r + t ≤ len) : (a + UInt32.ofNat r + UInt32.ofNat t).toNat = a.toNat + (r + t) := by
  rw [UInt32.add_assoc, ← UInt32.ofNat_add, UInt32.toNat_add, UInt32.toNat_ofNat']
  omega

theorem body_backward (hto : to_.toNat + len < 2 ^ 32) (hfrom : from_.toNat + len < 2 ^ 32)
    (hlt : from_ < to_) {m : Nat} (hm : m < len) :
    body chunksz (backward ram to_ from_ len m) =
      backward ram to_ from_ len (m + next chunksz (len - m)) := by
  have hnext := next_le chunksz (len - m)
  have hgt := (add_lt_add_iff hfrom hto (Nat.sub_le len m)).mpr hlt
  have hgt' : from_ + UInt32.ofNat (len - m) - UInt32.ofNat (next chunksz (len - m)) <
      to_ + UInt32.ofNat (len - m) - UInt32.ofNat (next chunksz (len - m)) := by
    rw [add_ofNat_sub_ofNat from_ hnext, add_ofNat_sub_ofNat to_ hnext]
    exact (add_lt_add_iff hfrom hto (by omega)).mpr hlt
  rw [body_of_gt (s := backward ram to_ from_ len m) (tail_eq (by omega)) hgt hgt']
  generalize next chunksz (len - m) = t at hnext
  obtain ⟨r, hr⟩ : ∃ r, len - m = t + r := ⟨len - m - t, by omega⟩
  have hleft : len - (m + t) = r := by omega
  have hram : copy (copy ram (to_ + UInt32.ofNat r + UInt32.ofNat t)
      (from_ + UInt32.ofNat r + UInt32.ofNat t) m) (to_ + UInt32.ofNat r) (from_ + UInt32.ofNat r)
      t = copy ram (to_ + UInt32.ofNat r) (from_ + UInt32.ofNat r) (t + m) := by
    refine Ram.copy_copy_back ram (by omega) fun i hi => ?_
    have hlt := UInt32.lt_iff_toNat_lt.mp hlt
    rw [UInt32.toNat_sub, toNat_add_ofNat_add hto (by omega), toNat_add_ofNat_add hfrom (by omega)]
    omega
  simp only [backward, hr, hleft, UInt32.toNat_ofNat', Nat.mod_eq_of_lt (show t < 2 ^ 32 by omega),
    Nat.add_comm t r, UInt32.ofNat_add, ← UInt32.add_assoc, UInt32.add_sub_cancel, hram,
    Nat.add_comm t m]

/-! ## The whole move -/

theorem copy_zero (ram : Memory) (to_ from_ : UInt32) : copy ram to_ from_ 0 = ram := by
  funext x
  exact if_neg (Nat.not_lt_zero _)

theorem copy_self (ram : Memory) (to_ : UInt32) (len : Nat) : copy ram to_ to_ len = ram := by
  funext x
  show (if (x - to_).toNat < len then ram (to_ + (x - to_)) else ram x) = ram x
  rw [UInt32.add_comm, UInt32.sub_add_cancel, ite_self]

theorem memmoveWd_copy (ram : Memory) (hchunksz : 0 < chunksz) (hto : to_.toNat + len < 2 ^ 32)
    (hfrom : from_.toNat + len < 2 ^ 32) {fuel : Nat} (hfuel : len < fuel) :
    memmoveWd ram to_ from_ (UInt32.ofNat len) chunksz fuel = some (copy ram to_ from_ len) := by
  have hlen : len < 2 ^ 32 := by omega
  have hzero (a : UInt32) : a + UInt32.ofNat 0 = a := UInt32.add_zero a
  rw [memmoveWd]
  split_ifs with heq hgt
  · rw [heq, copy_self]
  · have hloop := loop_eq hchunksz hlen (backward ram to_ from_ len) (fun _ _ => rfl)
      (fun m hm => body_backward hto hfrom hgt hm) (Nat.zero_le len) hfuel
    simpa only [backward, Nat.sub_zero, copy_zero, Nat.sub_self, hzero] using hloop
  · have hlt : to_ < from_ := by
      have hne : to_.toNat ≠ from_.toNat := fun h => heq (UInt32.toNat_inj.mp h)
      rw [UInt32.lt_iff_toNat_lt] at hgt ⊢
      omega
    have hloop := loop_eq hchunksz hlen (forward ram to_ from_ len) (fun _ _ => rfl)
      (fun m hm => body_forward hto hfrom hlt hm) (Nat.zero_le len) hfuel
    simpa only [forward, Nat.sub_zero, copy_zero, hzero] using hloop

end

/-- **The move ends, and is `memmove`**: the destination holds what the source held, and nothing
else has changed. -/
theorem memmoveWd_eq (ram : Memory) (to_ from_ len chunksz : UInt32) (hchunksz : 0 < chunksz)
    (hto : to_.toNat + len.toNat < 2 ^ 32) (hfrom : from_.toNat + len.toNat < 2 ^ 32) :
    ∃ ram', (∀ fuel, len.toNat < fuel → memmoveWd ram to_ from_ len chunksz fuel = some ram') ∧
      readBytes ram' to_ len.toNat = readBytes ram from_ len.toNat ∧
      SameOff to_ len.toNat ram ram' := by
  refine ⟨copy ram to_ from_ len.toNat, fun fuel hfuel => ?_,
    Ram.readBytes_copy ram to_ from_ (Nat.le_refl _) len.toNat_lt.le,
    Ram.sameOff_copy ram to_ from_ _⟩
  have h := memmoveWd_copy ram hchunksz hto hfrom hfuel
  rwa [UInt32.ofNat_toNat] at h

/-- Five bytes, moved one up in chunks of two. -/
theorem memmoveWd_one_up : ∃ ram',
    memmoveWd (Ram.ofBytes 1000 [1, 2, 3, 4, 5]) 1001 1000 5 2 6 = some ram' ∧
      readBytes ram' 1001 5 = [1, 2, 3, 4, 5] ∧
      SameOff 1001 5 (Ram.ofBytes 1000 [1, 2, 3, 4, 5]) ram' := by
  obtain ⟨ram', hrun, hread, hoff⟩ := memmoveWd_eq (Ram.ofBytes 1000 [1, 2, 3, 4, 5]) 1001 1000 5 2
    (by decide) (by decide) (by decide)
  exact ⟨ram', hrun 6 (by decide), hread.trans (by decide), hoff⟩

end RealtekIpcam.Uboot.MemmoveWd
