import RealtekIpcam.Gpiolib.ArrayRounds
import RealtekIpcam.Lib.Pointwise

/-!
# Reading the lines that are not done at one go

The rounds of `gpiod_get_array_value_complex` take the positions that the mask leaves, a chip at a
time.  A round reads the lines of its chip at one go and stores what it has read bit for bit; this
is one step for each position (`Stepped`).  A round that finds no memory, or whose chip does not
read, ends the call with its error.
-/

namespace RealtekIpcam.Gpiolib.Arrays

open Bitmap Pointwise

variable {σ : Type} (c : Chips σ) (desc : Nat → Desc) (env : Env) (raw : Bool)

/-- What the chip has for a line. -/
def reading (s : Lines σ) (x : Key) : Int := (c.ops x).get (s x).hw

/-- The bit that is stored for a position. -/
def lineValue (s : Lines σ) (k : Nat) : Bool :=
  readValue raw (desc k) (decide (reading c s (desc k).key ≠ 0))

variable {c desc env raw} {n i : Nat} {left : Nat → Prop} {s : Lines σ}

/-! ## Several lines of a chip -/

theorem getMultipleLoop_spec (chip : Nat) (mask : Bitmap) (s : Lines σ) (is : List Nat)
    (bits : Bitmap) :
    let r := getMultipleLoop c chip mask s is bits
    (r.1 = 0 ↔ ∀ o ∈ is, mask o = true → 0 ≤ reading c s (chip, o)) ∧
      (r.1 = 0 → ∀ o, r.2 o =
        if o ∈ is ∧ mask o = true then decide (reading c s (chip, o) ≠ 0) else bits o) := by
  induction is generalizing bits with
  | nil => simp [getMultipleLoop]
  | cons i is ih =>
    by_cases hmask : mask i = true
    · by_cases hneg : reading c s (chip, i) < 0
      · have hr : getMultipleLoop c chip mask s (i :: is) bits = (reading c s (chip, i), bits) := by
          rw [getMultipleLoop, if_pos hmask]
          exact if_pos hneg
        simp only [hr]
        refine ⟨iff_of_false (Int.ne_of_lt hneg) fun hall => ?_, fun habs =>
          absurd habs (Int.ne_of_lt hneg)⟩
        exact absurd (hall i List.mem_cons_self hmask) (Int.not_le.mpr hneg)
      · have hr : getMultipleLoop c chip mask s (i :: is) bits = getMultipleLoop c chip mask s is
            (bits.assign i (decide (reading c s (chip, i) ≠ 0))) := by
          rw [getMultipleLoop, if_pos hmask]
          exact if_neg hneg
        simp only [hr]
        obtain ⟨hzero, hbits⟩ := ih (bits.assign i (decide (reading c s (chip, i) ≠ 0)))
        refine ⟨hzero.trans ?_, fun hret o => (hbits hret o).trans ?_⟩
        · rw [List.forall_mem_cons]
          exact (and_iff_right fun _ => Int.not_lt.mp hneg).symm
        · rw [assign_apply]
          by_cases ho : o = i
          · subst ho
            simp [hmask]
          · simp [ho]
    · have hr : getMultipleLoop c chip mask s (i :: is) bits =
          getMultipleLoop c chip mask s is bits := by
        rw [getMultipleLoop, if_neg hmask]
      simp only [hr]
      obtain ⟨hzero, hbits⟩ := ih bits
      refine ⟨hzero.trans ?_, fun hret o => (hbits hret o).trans ?_⟩
      · rw [List.forall_mem_cons]
        exact (and_iff_right fun habs => absurd habs hmask).symm
      · by_cases ho : o = i
        · subst ho
          simp [hmask]
        · simp [ho]

/-- **`gpio_chip_get_multiple`** succeeds when all lines of the mask read. -/
theorem gpioChipGetMultiple_eq_zero_iff {chip : Nat} {mask bits : Bitmap} :
    (gpioChipGetMultiple c chip mask bits s).1 = 0 ↔
      ∀ o < c.ngpio chip, mask o = true → 0 ≤ reading c s (chip, o) := by
  refine (getMultipleLoop_spec chip mask s _ bits).1.trans ?_
  simp only [List.mem_range]

theorem gpioChipGetMultiple_apply {chip : Nat} {mask bits : Bitmap}
    (h : (gpioChipGetMultiple c chip mask bits s).1 = 0) (o : Nat) :
    (gpioChipGetMultiple c chip mask bits s).2 o =
      if o < c.ngpio chip ∧ mask o = true then decide (reading c s (chip, o) ≠ 0) else bits o := by
  refine ((getMultipleLoop_spec chip mask s _ bits).2 h o).trans ?_
  simp only [List.mem_range]

/-! ## One round -/

/-- The mask that a round from `i` has collected below `j`. -/
structure Gathered (desc : Nat → Desc) (left : Nat → Prop) (i j : Nat) (mask : Bitmap) : Prop where
  le : i ≤ j
  chip : ∀ k, Passed left i j k → (desc k).chip = (desc i).chip
  mask : ∀ o, mask o = true ↔ ∃ k, Passed left i j k ∧ (desc k).hwgpio = o

theorem gathered_start : Gathered desc left i i fun _ => false := by
  have hnone : ∀ k, ¬ Passed left i i k := fun k hk => absurd hk.1 (Nat.not_le.mpr hk.2.1)
  exact ⟨Nat.le_refl i, fun k hk => absurd hk (hnone k),
    fun o => iff_of_false nofun fun ⟨k, hk, _⟩ => hnone k hk⟩

variable {j : Nat} {mask value value' : Bitmap}

theorem Gathered.skip (h : Gathered desc left i j mask) (hleft : ¬ left j) :
    Gathered desc left i (j + 1) mask := by
  have hpassed : ∀ k, Passed left i (j + 1) k ↔ Passed left i j k :=
    fun k => passed_succ_of_not_left hleft
  exact ⟨Nat.le_succ_of_le h.le, by simpa only [hpassed] using h.chip,
    by simpa only [hpassed] using h.mask⟩

theorem Gathered.collect (h : Gathered desc left i j mask) (hleft : left j)
    (hchip : (desc j).chip = (desc i).chip) :
    Gathered desc left i (j + 1) (mask.assign (desc j).hwgpio true) := by
  have hpassed : ∀ k, Passed left i (j + 1) k ↔ Passed left i j k ∨ k = j :=
    fun k => passed_succ_of_left h.le hleft
  refine ⟨Nat.le_succ_of_le h.le, fun k hk => ?_, fun o => ?_⟩
  · rcases (hpassed k).mp hk with hk | rfl
    · exact h.chip k hk
    · exact hchip
  · rw [assign_apply]
    by_cases ho : o = (desc j).hwgpio
    · rw [if_pos ho]
      exact iff_of_true rfl ⟨j, (hpassed j).mpr (Or.inr rfl), ho.symm⟩
    · rw [if_neg ho, h.mask]
      refine ⟨fun ⟨k, hk, hko⟩ => ⟨k, (hpassed k).mpr (Or.inl hk), hko⟩, ?_⟩
      rintro ⟨k, hk, hko⟩
      rcases (hpassed k).mp hk with hk | rfl
      · exact ⟨k, hk, hko⟩
      · exact absurd hko.symm ho

/-- The bits of the positions from `i` to `j` have been stored. -/
structure Stored (left : Nat → Prop) (w : Nat → Bool) (value : Bitmap) (i j : Nat)
    (value' : Bitmap) : Prop where
  le : i ≤ j
  stepped : Stepped id (fun k _ => w k) {k | Passed left i j k} value value'

theorem stored_start {w : Nat → Bool} : Stored left w value i i value :=
  ⟨Nat.le_refl i, Stepped.of_empty fun _ hk => absurd hk.1 (Nat.not_le.mpr hk.2.1)⟩

theorem Stored.skip {w : Nat → Bool} (h : Stored left w value i j value') (hleft : ¬ left j) :
    Stored left w value i (j + 1) value' :=
  ⟨Nat.le_succ_of_le h.le,
    h.stepped.congr (fun _ => passed_succ_of_not_left hleft) fun _ _ => rfl⟩

theorem Stored.store {w : Nat → Bool} (h : Stored left w value i j value') (hleft : left j) :
    Stored left w value i (j + 1) (value'.assign j (w j)) := by
  refine ⟨Nat.le_succ_of_le h.le, (h.stepped.trans (stepped_update id (fun k _ => w k) value' j)
    fun a ha b hb => ?_).congr (fun _ => passed_succ_of_left h.le hleft) fun _ _ => rfl⟩
  obtain rfl : b = j := hb
  exact Nat.ne_of_lt ha.2.1

section Rounds

variable {getMask : Option Bitmap}

/-- **One round**, when there is memory for its mask.  It fails when one of its lines does not
read. -/
theorem getRound_spec (raw : Bool) (s : Lines σ) (value : Bitmap)
    (hhw : ∀ k < n, (desc k).hwgpio < c.ngpio (desc k).chip) (hi : i < n)
    (hleft : Clear getMask i) (hmem : noMask c.ngpio desc env i = false) :
    let r := getRound c desc env raw n getMask s i value
    (r.1 = 0 → OneChip desc n (Clear getMask) i r.2.1 ∧
      (∀ k, Passed (Clear getMask) i r.2.1 k → 0 ≤ reading c s (desc k).key) ∧
        Stepped id (fun k _ => lineValue c desc raw s k) {k | Passed (Clear getMask) i r.2.1 k}
          value r.2.2) ∧
      ((∀ k < n, 0 ≤ reading c s (desc k).key) → r.1 = 0) := by
  have hloop := doWhile_spec (n := n) (i := i) getMask
    (fun j (mask : Bitmap) => mask.assign (desc j).hwgpio true)
    (fun j => decide (j < n) && decide ((desc j).chip = (desc i).chip))
    (Gathered desc (Clear getMask) i)
    (fun j hj => of_decide_eq_true ((Bool.and_eq_true _ _ ▸ hj).1)) ?_
    (fun j b hj hP => hP.skip hj) hi hleft (Nat.le_refl _) gathered_start
  · rw [getRound, if_neg (Bool.eq_false_iff.mp hmem)]
    generalize doWhile (fun j (mask : Bitmap) => mask.assign (desc j).hwgpio true)
      (nextClear getMask n) (fun j => decide (j < n) && decide ((desc j).chip = (desc i).chip))
      (n - i) i (fun _ => false) = done at hloop
    obtain ⟨i', mask⟩ := done
    obtain ⟨hgath, hlt, hle, hmore, hnext⟩ := hloop
    dsimp only at hgath hlt hle hmore hnext ⊢
    have hin : ∀ k, Passed (Clear getMask) i i' k →
        (desc k).hwgpio < c.ngpio (desc i).chip ∧ mask (desc k).hwgpio = true := fun k hk =>
      ⟨hgath.chip k hk ▸ hhw k (hk.2.1.trans_le hle), (hgath.mask _).mpr ⟨k, hk, rfl⟩⟩
    have hkey : ∀ k, Passed (Clear getMask) i i' k →
        (desc k).key = ((desc i).chip, (desc k).hwgpio) :=
      fun k hk => Prod.ext (hgath.chip k hk) rfl
    generalize hgot : gpioChipGetMultiple c (desc i).chip mask (env.scratch i) s = got
    by_cases hret : got.1 = 0
    · rw [if_neg (not_not.mpr hret)]
      refine ⟨fun _ => ⟨⟨hlt, hle, hgath.chip, fun hn => ⟨hnext hn, fun hchip => ?_⟩⟩,
        fun k hk => ?_, ?_⟩, fun _ => rfl⟩
      · simp [hn, hchip] at hmore
      · rw [hkey k hk]
        exact gpioChipGetMultiple_eq_zero_iff.mp (hgot ▸ hret) _ (hin k hk).1 (hin k hk).2
      · have hbit : ∀ k, Passed (Clear getMask) i i' k →
            readValue raw (desc k) (got.2 (desc k).hwgpio) = lineValue c desc raw s k := by
          intro k hk
          rw [lineValue, hkey k hk, ← hgot, gpioChipGetMultiple_apply (hgot ▸ hret),
            if_pos (hin k hk)]
        have hstore := doWhile_spec (n := i') (i := i) getMask
          (fun j (value : Bitmap) =>
            value.assign j (readValue raw (desc j) (got.2 (desc j).hwgpio)))
          (fun j => decide (j < i')) (Stored (Clear getMask) (lineValue c desc raw s) value i)
          (fun j hj => of_decide_eq_true hj) ?_ (fun j b hj hP => hP.skip hj) hlt hleft
          (Nat.sub_le_sub_right hle i) stored_start
        · obtain ⟨hP, _, hle', hmore', _⟩ := hstore
          have hstop := Nat.le_antisymm hle' (Nat.not_lt.mp (of_decide_eq_false hmore'))
          rw [hstop] at hP
          exact hP.stepped
        · intro j b hj hclear _ hP
          rw [hbit j ⟨hP.le, hj, hclear⟩]
          exact hP.store hclear
    · rw [if_pos hret]
      refine ⟨fun habs => absurd habs hret, fun hall => absurd ?_ hret⟩
      rw [← hgot]
      refine gpioChipGetMultiple_eq_zero_iff.mpr fun o _ ho => ?_
      obtain ⟨k, hk, rfl⟩ := (hgath.mask o).mp ho
      rw [← hkey k hk]
      exact hall k (hk.2.1.trans_le hle)
  · intro j b hj hclear hok hP
    refine hP.collect hclear ?_
    rcases hok with rfl | hok
    · rfl
    · exact of_decide_eq_true (Bool.and_eq_true _ _ ▸ hok).2

/-- **The rounds.**  When they succeed every position that is left has its bit and no other has
changed.  They succeed when all lines read and there is memory at every start, and a start without
memory is a failure. -/
theorem getRounds_spec (env : Env) (raw : Bool) (s : Lines σ) (value : Bitmap)
    (hhw : ∀ k < n, (desc k).hwgpio < c.ngpio (desc k).chip) {rounds : Nat}
    (hrounds : n - i ≤ rounds) (hin : i ≤ n) (hstart : i < n → Starts desc n (Clear getMask) i) :
    let r := getRounds c desc env raw n getMask s rounds i value
    (r.1 = 0 → (∀ k, Passed (Clear getMask) i n k → 0 ≤ reading c s (desc k).key) ∧
      Stepped id (fun k _ => lineValue c desc raw s k) {k | Passed (Clear getMask) i n k}
        value r.2) ∧
    ((∀ m, i ≤ m → Starts desc n (Clear getMask) m → noMask c.ngpio desc env m = false) →
      (∀ k < n, 0 ≤ reading c s (desc k).key) → r.1 = 0) ∧
    ((∃ m, i ≤ m ∧ Starts desc n (Clear getMask) m ∧ noMask c.ngpio desc env m = true) →
      r.1 ≠ 0) := by
  have hend : ∀ i, i = n → ∀ k, ¬ Passed (Clear getMask) i n k := by
    rintro i rfl k hk
    exact absurd hk.1 (Nat.not_le.mpr hk.2.1)
  induction rounds generalizing i value with
  | zero =>
    have hi : i = n := by omega
    exact ⟨fun _ => ⟨fun k hk => absurd hk (hend i hi k), Stepped.of_empty (hend i hi)⟩,
      fun _ _ => rfl, fun ⟨m, him, hm, _⟩ => absurd hm.1 (by omega)⟩
  | succ rounds ih =>
    rw [getRounds]
    by_cases hlt : i < n
    · rw [if_pos hlt]
      have hs := hstart hlt
      cases hmem : noMask c.ngpio desc env i with
      | true =>
        have hr : getRound c desc env raw n getMask s i value = (-ENOMEM, i, value) := by
          rw [getRound, if_pos hmem]
        have hne : -ENOMEM ≠ 0 := by decide
        simp only [hr, if_pos hne]
        refine ⟨fun habs => absurd habs hne, fun hok => ?_, fun _ => hne⟩
        exact Bool.noConfusion (hmem.symm.trans (hok i (Nat.le_refl i) hs))
      | false =>
        obtain ⟨hgood, hreads⟩ :=
          getRound_spec raw s value hhw hlt hs.2.1 hmem
        generalize getRound c desc env raw n getMask s i value = r at hgood hreads
        obtain ⟨ret, i', value'⟩ := r
        dsimp only at hgood hreads ⊢
        by_cases hret : ret = 0
        · rw [if_neg (not_not.mpr hret)]
          obtain ⟨hchip, hnonneg, hstep⟩ := hgood hret
          obtain ⟨hdone, hok, hbad⟩ := ih value' (i := i')
            (by have := hchip.lt; omega) hchip.le (hchip.starts hs.2.1)
          have hsplit : ∀ k, Passed (Clear getMask) i n k ↔
              Passed (Clear getMask) i i' k ∨ Passed (Clear getMask) i' n k :=
            fun k => passed_split hchip.lt.le hchip.le
          refine ⟨fun hzero => ?_, fun hm => hok fun m hi' => hm m (hchip.lt.le.trans hi'), ?_⟩
          · obtain ⟨hrest, hstep'⟩ := hdone hzero
            refine ⟨fun k hk => ?_, (hstep.trans hstep' fun a ha b hb => ?_).congr hsplit
              fun _ _ => rfl⟩
            · rcases (hsplit k).mp hk with hk | hk
              · exact hnonneg k hk
              · exact hrest k hk
            · exact Nat.ne_of_lt (ha.2.1.trans_le hb.1)
          · rintro ⟨m, him, hm, hno⟩
            have hne : i ≠ m := fun heq => Bool.noConfusion (hmem.symm.trans (heq ▸ hno))
            exact hbad ⟨m, hchip.le_of_starts hs.2.1 hm (Nat.lt_of_le_of_ne him hne), hm, hno⟩
        · rw [if_pos hret]
          exact ⟨fun habs => absurd habs hret, fun _ hall => absurd (hreads hall) hret,
            fun _ => hret⟩
    · rw [if_neg hlt]
      have hi : i = n := by omega
      exact ⟨fun _ => ⟨fun k hk => absurd hk (hend i hi k), Stepped.of_empty (hend i hi)⟩,
        fun _ _ => rfl, fun ⟨m, him, hm, _⟩ => absurd hm.1 (by omega)⟩

end Rounds

end RealtekIpcam.Gpiolib.Arrays
