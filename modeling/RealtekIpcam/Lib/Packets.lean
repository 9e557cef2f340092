import Mathlib.Data.List.Range

/-!
# Cutting a transfer into packets

A transfer of `L` bytes over a pipe that takes at most `M` bytes at a time goes as a row of packets
in which every one but the last is full.  `packet M bs k` is the `k`th of them, `count M L` how many
there are; a transfer of no bytes is one empty packet.

A sender knows only how much it has sent.  The two facts it needs are that before the last packet
the transfer is not complete, `mul_succ_lt_of_lt_count`, and that with the last one it is,
`le_mul_count`.  `Full` is the receiver's view: packets that arrive, full but for the last.
-/

namespace Packets

variable {α : Type} {M L k : Nat} {bs : List α} {ps : List (List α)}

/-- The number of packets of a transfer. -/
def count (M L : Nat) : Nat := if L = 0 then 1 else (L - 1) / M + 1

/-- The `k`th packet. -/
def packet (M : Nat) (bs : List α) (k : Nat) : List α := (bs.drop (M * k)).take M

/-- All packets of a transfer. -/
def split (M : Nat) (bs : List α) : List (List α) :=
  (List.range (count M bs.length)).map (packet M bs)

/-! ## Counting -/

theorem count_pos (M L : Nat) : 0 < count M L := by
  unfold count
  split
  · exact Nat.one_pos
  · exact Nat.succ_pos _

/-- Before the last packet something is left. -/
theorem mul_succ_lt_of_lt_count (h : k + 1 < count M L) : M * (k + 1) < L := by
  unfold count at h
  split at h
  · exact absurd h (by omega)
  · next hL =>
    have hdiv : k + 1 ≤ (L - 1) / M := Nat.le_of_lt_succ h
    have hmul := Nat.mul_le_mul_left M hdiv
    have hle := Nat.mul_div_le (L - 1) M
    omega

/-- With the last packet nothing is left. -/
theorem le_mul_count (hM : 0 < M) : L ≤ M * count M L := by
  unfold count
  split
  · next hL => rw [hL]; exact Nat.zero_le _
  · have hlt := Nat.lt_mul_div_succ (L - 1) hM
    omega

/-- Before each packet of a transfer that is not empty something is left. -/
theorem mul_lt_of_lt_count (hL : 0 < L) (h : k < count M L) : M * k < L := by
  cases k with
  | zero => rwa [Nat.mul_zero]
  | succ k => exact mul_succ_lt_of_lt_count h

/-! ## The packets -/

theorem length_packet : (packet M bs k).length = min M (bs.length - M * k) := by
  rw [packet, List.length_take, List.length_drop]

/-- The packets so far are the bytes so far. -/
theorem flatten_packets (k : Nat) :
    ((List.range k).map (packet M bs)).flatten = bs.take (M * k) := by
  induction k with
  | zero => rw [Nat.mul_zero, List.take_zero]; rfl
  | succ k ih =>
    rw [List.range_succ, List.map_append, List.flatten_append, ih, Nat.mul_succ, List.take_add]
    simp [packet]

theorem length_split : (split M bs).length = count M bs.length := by
  rw [split, List.length_map, List.length_range]

/-- **The packets are the transfer**, in order. -/
theorem flatten_split (hM : 0 < M) : (split M bs).flatten = bs := by
  rw [split, flatten_packets, List.take_of_length_le (le_mul_count hM)]

theorem take_split (h : k ≤ count M bs.length) :
    (split M bs).take k = (List.range k).map (packet M bs) := by
  rw [split, ← List.map_take, List.take_range, Nat.min_eq_left h]

theorem dropLast_split :
    (split M bs).dropLast = (List.range (count M bs.length - 1)).map (packet M bs) := by
  rw [List.dropLast_eq_take, length_split, take_split (Nat.sub_le _ _)]

theorem length_of_mem_dropLast {p : List α} (h : p ∈ (split M bs).dropLast) : p.length = M := by
  rw [dropLast_split, List.mem_map] at h
  obtain ⟨k, hk, rfl⟩ := h
  rw [List.mem_range] at hk
  have hlt : M * (k + 1) < bs.length := mul_succ_lt_of_lt_count (by omega)
  rw [Nat.mul_succ] at hlt
  rw [length_packet]
  omega

/-- Every packet but the last is full, and the last is not empty. -/
structure Full (M : Nat) (ps : List (List α)) : Prop where
  dropLast : ∀ p ∈ ps.dropLast, p.length = M
  le : ∀ p ∈ ps, p.length ≤ M
  pos : ∀ p ∈ ps, 0 < p.length

theorem Full.length_getElem (h : Full M ps) (hk : k + 1 < ps.length) :
    ps[k].length = M := by
  refine h.dropLast _ ?_
  rw [List.mem_iff_getElem]
  exact ⟨k, by rw [List.length_dropLast]; omega, List.getElem_dropLast _⟩

theorem Full.length_flatten_take (h : Full M ps) (hk : k < ps.length) :
    (ps.take k).flatten.length = M * k := by
  induction k with
  | zero => rfl
  | succ k ih =>
    rw [List.take_add_one, List.flatten_append, List.length_append, ih (by omega),
      List.getElem?_eq_getElem (by omega)]
    simp [h.length_getElem hk, Nat.mul_succ]

/-- How much the packet `k` brings, and which packet is the last. -/
theorem Full.length_eq (h : Full M ps) (hk : k < ps.length) :
    M * k < ps.flatten.length ∧ ps[k].length = min M (ps.flatten.length - M * k) ∧
      (ps.flatten.length ≤ M * (k + 1) ↔ k + 1 = ps.length) := by
  have hsplit : ps.flatten.length =
      M * k + ps[k].length + (ps.drop (k + 1)).flatten.length := by
    rw [← h.length_flatten_take hk]
    conv_lhs => rw [← List.take_append_drop k ps, List.drop_eq_getElem_cons hk]
    rw [List.flatten_append, List.length_append, List.flatten_cons, List.length_append,
      Nat.add_assoc]
  have hpos := h.pos _ (List.getElem_mem hk)
  have hle := h.le _ (List.getElem_mem hk)
  rw [Nat.mul_succ]
  by_cases hlast : k + 1 = ps.length
  · rw [List.drop_of_length_le (by omega), List.flatten_nil, List.length_nil] at hsplit
    omega
  · have hfull := h.length_getElem (k := k) (by omega)
    have hnext := h.pos _ (List.getElem_mem (show k + 1 < ps.length by omega))
    rw [List.drop_eq_getElem_cons (by omega), List.flatten_cons, List.length_append] at hsplit
    omega

end Packets
