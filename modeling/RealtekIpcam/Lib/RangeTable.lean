import Mathlib

/-!
# Tables of ranges

A table is a list of entries, each of which covers a set of keys.  If the sets are not empty and do
not meet, a key belongs to at most one entry, and a search from the front finds that entry whatever
the order of the list is.

The ranges of the applications are intervals, closed or half open, and a table of intervals may be
kept sorted: then it is enough that each entry ends before the next one begins.
-/

namespace RangeTable

variable {ι α : Type*} {rng : ι → Set α} {l l' : List ι} {i j : ι} {k : α}

/-- The entries cover sets that are not empty and do not meet. -/
structure Table (rng : ι → Set α) (l : List ι) : Prop where
  nonempty : ∀ i ∈ l, (rng i).Nonempty
  disjoint : l.Pairwise fun i j => Disjoint (rng i) (rng j)

theorem Table.nil : Table rng [] := ⟨nofun, List.Pairwise.nil⟩

/-- The table with one more entry at its end. -/
theorem Table.concat (h : Table rng l) (hne : (rng i).Nonempty)
    (hd : ∀ j ∈ l, Disjoint (rng j) (rng i)) : Table rng (l ++ [i]) where
  nonempty j hj := by
    rcases List.mem_append.mp hj with hj | hj
    · exact h.nonempty j hj
    · rw [List.mem_singleton.mp hj]
      exact hne
  disjoint := by
    refine List.pairwise_append.mpr ⟨h.disjoint, List.pairwise_singleton _ _, ?_⟩
    intro j hj i' hi'
    rw [List.mem_singleton.mp hi']
    exact hd j hj

theorem Table.sublist (h : Table rng l) (hs : l'.Sublist l) : Table rng l' where
  nonempty i hi := h.nonempty i (hs.subset hi)
  disjoint := h.disjoint.sublist hs

/-- The order of the entries does not matter. -/
theorem Table.perm (h : Table rng l) (hp : l'.Perm l) : Table rng l' where
  nonempty i hi := h.nonempty i (hp.subset hi)
  disjoint := (hp.pairwise_iff fun hd => hd.symm).mpr h.disjoint

/-- Entries that share a key are the same. -/
theorem Table.eq_of_mem (h : Table rng l) (hi : i ∈ l) (hj : j ∈ l) (hki : k ∈ rng i)
    (hkj : k ∈ rng j) : i = j := by
  by_contra hne
  have hsymm : Std.Symm fun i j => Disjoint (rng i) (rng j) := ⟨fun _ _ hd => hd.symm⟩
  exact Set.disjoint_left.mp (h.disjoint.forall hi hj hne) hki hkj

/-- **Lookup.**  A search from the front finds the one entry that covers the key. -/
theorem Table.find?_eq_some_iff (h : Table rng l) {p : ι → Bool}
    (hp : ∀ i ∈ l, p i = true ↔ k ∈ rng i) : l.find? p = some i ↔ i ∈ l ∧ k ∈ rng i := by
  constructor
  · intro hfind
    have hmem := List.mem_of_find?_eq_some hfind
    exact ⟨hmem, (hp i hmem).mp (List.find?_some hfind)⟩
  · rintro ⟨hi, hk⟩
    cases hfind : l.find? p with
    | none => exact absurd ((hp i hi).mpr hk) (by simpa using List.find?_eq_none.mp hfind i hi)
    | some j =>
      have hj := List.mem_of_find?_eq_some hfind
      rw [h.eq_of_mem hj hi ((hp j hj).mp (List.find?_some hfind)) hk]

/-! ## Intervals -/

variable [LinearOrder α] {a b c d : α}

theorem disjoint_Icc_iff (hab : a ≤ b) (hcd : c ≤ d) :
    Disjoint (Set.Icc a b) (Set.Icc c d) ↔ b < c ∨ d < a := by
  constructor
  · intro h
    by_contra hno
    obtain ⟨hcb, had⟩ := not_or.mp hno
    rw [not_lt] at hcb had
    exact Set.disjoint_left.mp h (show max a c ∈ Set.Icc a b from ⟨le_max_left _ _, max_le hab hcb⟩)
      ⟨le_max_right _ _, max_le had hcd⟩
  · rintro (h | h)
    · exact Set.disjoint_left.mpr fun x hx hx' => absurd (hx'.1.trans hx.2) (not_le.mpr h)
    · exact Set.disjoint_left.mpr fun x hx hx' => absurd (hx.1.trans hx'.2) (not_le.mpr h)

/-- A half-open interval. -/
def span (a b : α) : Set α := Set.Ico a b

theorem mem_span {x : α} : x ∈ span a b ↔ a ≤ x ∧ x < b := Iff.rfl

/-- Half-open intervals, one of which ends before the other begins. -/
theorem disjoint_span_of_le (h : b ≤ c) : Disjoint (span a b) (span c d) :=
  Set.disjoint_left.mpr fun _ hx hx' => absurd (hx.2.trans_le (h.trans hx'.1)) (lt_irrefl _)

/-! ## Sorted tables -/

variable {lo hi : ι → α}

/-- Every entry ends before the later ones begin. -/
def Ordered (lo hi : ι → α) (l : List ι) : Prop := l.Pairwise fun i j => hi i ≤ lo j

/-- Such a list of intervals that are not empty is a table. -/
theorem Ordered.table (h : Ordered lo hi l) (hne : ∀ i ∈ l, lo i < hi i) :
    Table (fun i => span (lo i) (hi i)) l where
  nonempty i hi' := Set.nonempty_Ico.mpr (hne i hi')
  disjoint := h.imp disjoint_span_of_le

/-- It is sorted by where its entries begin. -/
theorem Ordered.sorted (h : Ordered lo hi l) (hne : ∀ i ∈ l, lo i < hi i) :
    l.Pairwise fun i j => lo i < lo j :=
  h.imp_of_mem fun hi' _ hle => (hne _ hi').trans_le hle

theorem Ordered.sublist (h : Ordered lo hi l) (hs : l'.Sublist l) : Ordered lo hi l' :=
  List.Pairwise.sublist hs h

/-- An entry goes where all before it have ended and none after it has begun. -/
theorem Ordered.insert (h : Ordered lo hi (l ++ l')) (hl : ∀ j ∈ l, hi j ≤ lo i)
    (hl' : ∀ j ∈ l', hi i ≤ lo j) : Ordered lo hi (l ++ i :: l') := by
  obtain ⟨hleft, hright, hcross⟩ := List.pairwise_append.mp h
  refine List.pairwise_append.mpr ⟨hleft, List.pairwise_cons.mpr ⟨hl', hright⟩, ?_⟩
  intro j hj k hk
  rcases List.mem_cons.mp hk with rfl | hk
  · exact hl j hj
  · exact hcross j hj k hk

/-- What begins after the first entry's beginning has room before the others, too. -/
theorem Ordered.le_lo_of_cons (h : Ordered lo hi (i :: l)) (hne : ∀ j ∈ i :: l, lo j < hi j)
    (ha : a ≤ lo i) : ∀ j ∈ i :: l, a ≤ lo j := by
  intro j hj
  rcases List.mem_cons.mp hj with rfl | hmem
  · exact ha
  · have hlt := hne i List.mem_cons_self
    exact ha.trans (hlt.le.trans ((List.pairwise_cons.mp h).1 j hmem))

/-- What comes after the end of the last entry comes after the ends of the others, too. -/
theorem Ordered.hi_le_of_concat (h : Ordered lo hi (l ++ [i]))
    (hne : ∀ j ∈ l ++ [i], lo j < hi j) (ha : hi i ≤ a) : ∀ j ∈ l ++ [i], hi j ≤ a := by
  intro j hj
  rcases List.mem_append.mp hj with hmem | hmem
  · have hlt := hne i (List.mem_append_right l (List.mem_singleton_self i))
    have hle := (List.pairwise_append.mp h).2.2 j hmem i (List.mem_singleton_self i)
    exact hle.trans (hlt.le.trans ha)
  · rw [List.mem_singleton.mp hmem]
    exact ha

end RangeTable
