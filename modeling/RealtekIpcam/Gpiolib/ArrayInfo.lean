import RealtekIpcam.Gpiolib.Arrays

/-!
# The masks of an array

`gpiod_get_array` sets all bits of the masks when it selects the chip, and clears those of the lines
that are not in hardware order.  When a line of the chip is not, and all lines before it are, it
gives the masks up.  But what it gives up is its own pointer.  The masks stay with the array, and
they mark all lines from there on.
-/

namespace RealtekIpcam.Gpiolib.Arrays

open Bitmap

variable (desc : Nat → Desc)

/-- The line has the number of its position, on the chip of the first line. -/
def InOrder (j : Nat) : Prop := (desc j).chip = (desc 0).chip ∧ (desc j).hwgpio = j
  deriving Decidable

/-- The line is on the chip of the first line and has another number than its position, the first
one to do so, and all before it are on that chip too. -/
def BreaksOrder (m : Nat) : Prop :=
  (∀ j < m, InOrder desc j) ∧ (desc m).chip = (desc 0).chip ∧ (desc m).hwgpio ≠ m

instance (m : Nat) : Decidable (BreaksOrder desc m) := inferInstanceAs (Decidable (_ ∧ _))

/-- The masks when the lines below `k` have been looked at. -/
structure Marks (count k : Nat) (a : ArrayInfo) : Prop where
  chip : a.chip = (desc 0).chip
  size : a.size = count
  getMask : ∀ j, a.getMask j = true ↔ j < count ∧ (j < k → InOrder desc j)
  setMask : ∀ j, a.setMask j = true ↔ j < count ∧ (j < k → InOrder desc j ∧
    (desc j).openDrain = false ∧ (desc j).openSource = false)
  invertMask : ∀ j, a.invertMask j = true ↔ j < k ∧ InOrder desc j ∧ (desc j).activeLow = true

/-- What `gpiod_get_array` has built from the lines below `k`. -/
inductive Built (count k : Nat) : Building → Prop where
  | unselected (h : k = 0 ∨ (desc 0).hwgpio ≠ 0) : Built count k ⟨none, false⟩
  | live {a : ArrayInfo} (hzero : (desc 0).hwgpio = 0) (hmarks : Marks desc count k a)
      (hnone : ∀ m < k, ¬ BreaksOrder desc m) : Built count k ⟨some a, true⟩
  | givenUp {a : ArrayInfo} {m : Nat} (hzero : (desc 0).hwgpio = 0) (hm : m < k)
      (hbreaks : BreaksOrder desc m) (hmarks : Marks desc count m a) : Built count k ⟨some a, false⟩

variable {desc} {count k : Nat} {a : ArrayInfo}

/-! ## One line -/

theorem Marks.unmark (h : Marks desc count k a) (hout : ¬ InOrder desc k) :
    Marks desc count (k + 1) (a.unmark k) where
  chip := h.chip
  size := h.size
  getMask j := by
    show a.getMask.assign k false j = true ↔ _
    by_cases hj : j = k
    · simp [hj, hout]
    · rw [assign_of_ne hj, h.getMask, show j < k + 1 ↔ j < k by omega]
  setMask j := by
    show a.setMask.assign k false j = true ↔ _
    by_cases hj : j = k
    · simp [hj, hout]
    · rw [assign_of_ne hj, h.setMask, show j < k + 1 ↔ j < k by omega]
  invertMask j := by
    show a.invertMask j = true ↔ _
    rw [h.invertMask]
    by_cases hj : j = k
    · simp [hj, hout]
    · rw [show j < k + 1 ↔ j < k by omega]

theorem Marks.mark (h : Marks desc count k a) (hk : k < count) (hin : InOrder desc k) :
    Marks desc count (k + 1) (a.mark (desc k) k) where
  chip := h.chip
  size := h.size
  getMask j := by
    show a.getMask j = true ↔ _
    rw [h.getMask]
    by_cases hj : j = k
    · simp [hj, hin, hk]
    · rw [show j < k + 1 ↔ j < k by omega]
  setMask j := by
    show (if (desc k).openDrain || (desc k).openSource then a.setMask.assign k false
      else a.setMask) j = true ↔ _
    by_cases hj : j = k
    · subst hj
      have hold := h.setMask j
      simp only [lt_irrefl, false_implies, and_true] at hold
      cases (desc j).openDrain <;> cases (desc j).openSource <;> simp [hold, hin, hk]
    · rw [show j < k + 1 ↔ j < k by omega, ← h.setMask]
      split
      · rw [assign_of_ne hj]
      · rfl
  invertMask j := by
    show (if (desc k).activeLow then a.invertMask.assign k true else a.invertMask) j = true ↔ _
    by_cases hj : j = k
    · subst hj
      have hold := h.invertMask j
      simp only [lt_irrefl, false_and, iff_false] at hold
      cases (desc j).activeLow <;> simp [hold, hin]
    · rw [show j < k + 1 ↔ j < k by omega, ← h.invertMask]
      split
      · rw [assign_of_ne hj]
      · rfl

theorem Marks.isFull_iff (h : Marks desc count k a) (hk : k < count) :
    a.getMask.isFull k = true ↔ ∀ j < k, InOrder desc j := by
  rw [Bitmap.isFull_iff]
  refine forall_congr' fun j => forall_congr' fun hj => ?_
  rw [h.getMask, and_iff_right (hj.trans hk)]
  exact ⟨fun hin => hin hj, fun hin _ => hin⟩

theorem built_classify_live (hk : k < count) (hzero : (desc 0).hwgpio = 0)
    (h : Marks desc count k a) (hnone : ∀ m < k, ¬ BreaksOrder desc m) :
    Built desc count (k + 1) (classify (desc k) k ⟨some a, true⟩) := by
  have hnext : ¬ BreaksOrder desc k → ∀ m < k + 1, ¬ BreaksOrder desc m := by
    intro hbreaks m hm
    rcases Nat.lt_succ_iff_lt_or_eq.mp hm with hlt | rfl
    · exact hnone m hlt
    · exact hbreaks
  simp only [classify, if_true, h.chip]
  by_cases hchip : (desc 0).chip = (desc k).chip
  · rw [if_neg (not_not.mpr hchip)]
    by_cases hhw : (desc k).hwgpio = k
    · rw [if_neg (not_not.mpr hhw)]
      exact .live hzero (h.mark hk ⟨hchip.symm, hhw⟩) (hnext fun hbreaks => hbreaks.2.2 hhw)
    · rw [if_pos hhw]
      by_cases hfull : ∀ j < k, InOrder desc j
      · rw [if_pos ((h.isFull_iff hk).mpr hfull)]
        exact .givenUp hzero (Nat.lt_succ_self k) ⟨hfull, hchip.symm, hhw⟩ h
      · rw [if_neg fun hf => hfull ((h.isFull_iff hk).mp hf)]
        exact .live hzero (h.unmark fun hin => hhw hin.2) (hnext fun hbreaks => hfull hbreaks.1)
  · rw [if_pos hchip]
    exact .live hzero (h.unmark fun hin => hchip hin.1.symm)
      (hnext fun hbreaks => hchip hbreaks.2.1.symm)

theorem Built.addDesc {b : Building} (h : Built desc count k b) (hk : k < count) :
    Built desc count (k + 1) (addDesc count desc b k) := by
  unfold Arrays.addDesc selectChip
  by_cases hfirst : k = 0 ∧ (desc k).hwgpio = 0
  · obtain ⟨rfl, hzero⟩ := hfirst
    rw [if_pos ⟨rfl, hzero⟩]
    refine built_classify_live hk hzero ⟨rfl, rfl, ?_, ?_, ?_⟩ fun m hm => absurd hm (by omega)
    · simp
    · simp
    · simp
  · rw [if_neg hfirst]
    cases h with
    | unselected h =>
      refine .unselected (Or.inr fun hzero => ?_)
      rcases h with rfl | h
      · exact hfirst ⟨rfl, hzero⟩
      · exact h hzero
    | live hzero hmarks hnone => exact built_classify_live hk hzero hmarks hnone
    | givenUp hzero hm hbreaks hmarks => exact .givenUp hzero (Nat.lt_succ_of_lt hm) hbreaks hmarks

theorem built_gpiodGetArray (desc : Nat → Desc) (count : Nat) :
    Built desc count count ((List.range count).foldl (addDesc count desc) ⟨none, false⟩) := by
  have key : ∀ k ≤ count,
      Built desc count k ((List.range k).foldl (addDesc count desc) ⟨none, false⟩) := by
    intro k
    induction k with
    | zero => exact fun _ => .unselected (Or.inl rfl)
    | succ k ih =>
      intro hk
      rw [List.range_succ, List.foldl_append]
      exact (ih (Nat.le_of_succ_le hk)).addDesc hk
  exact key count (Nat.le_refl count)

/-- **The masks that come with an array.**  Either they mark the lines in order, or a line breaks
the order and they mark everything from there on. -/
theorem marks_of_gpiodGetArray (h : gpiodGetArray count desc = some a) :
    (desc 0).hwgpio = 0 ∧ ((Marks desc count count a ∧ ∀ m < count, ¬ BreaksOrder desc m) ∨
      ∃ m < count, BreaksOrder desc m ∧ Marks desc count m a) := by
  have hbuilt := built_gpiodGetArray desc count
  rw [gpiodGetArray] at h
  generalize (List.range count).foldl (addDesc count desc) ⟨none, false⟩ = b at h hbuilt
  cases hbuilt with
  | unselected => cases h
  | live hzero hmarks hnone =>
    obtain rfl := Option.some.inj h
    exact ⟨hzero, Or.inl ⟨hmarks, hnone⟩⟩
  | givenUp hzero hm hbreaks hmarks =>
    obtain rfl := Option.some.inj h
    exact ⟨hzero, Or.inr ⟨_, hm, hbreaks, hmarks⟩⟩

end RealtekIpcam.Gpiolib.Arrays
